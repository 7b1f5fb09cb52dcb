import ParamQuery.Name
import ParamQuery.Proofs.Letters

/-!
# Characters of canonical names

A canonical name holds no dash and no white space, and no comma or point that the name did not
hold: what separates words becomes an underscore, and lower case makes none of these characters out
of others.

## Main definitions

* `isBreak` — what separates words, the entries of a list, or the parts of an entry.

## Main statements

* `isBreak_lowered` — a capital in lower case separates nothing.
* `canonicalFrom_separator`, `canonicalFrom_capital`, `canonicalFrom_other` — what one more
  character of a name adds to its canonical form.
* `mem_canonicalChars` — the characters of a canonical name.
-/

namespace ParamQuery

open Text

/-- Whether a character separates words, the entries of a list of fields, or the parts of an
entry. -/
def isBreak (c : Char) : Bool := isSeparator c || c == ',' || c == '.'

/-- Runs of the characters that separate: first and last. -/
def breakRuns : List (Nat × Nat) := [
  (9, 13), (0x20, 0x20), (0x2C, 0x2E), (0x85, 0x85), (0xA0, 0xA0), (0x1680, 0x1680),
  (0x2000, 0x200A), (0x2028, 0x2029), (0x202F, 0x202F), (0x205F, 0x205F), (0x3000, 0x3000)]

theorem exists_breakRun {c : Char} (h : isBreak c = true) :
    ∃ run ∈ breakRuns, run.1 ≤ c.toNat ∧ c.toNat ≤ run.2 := by
  simp only [isBreak, isSeparator, Bool.or_eq_true, beq_iff_eq] at h
  rcases h with ((rfl | h) | rfl) | rfl
  · exact ⟨(0x2C, 0x2E), by decide, by decide⟩
  · simp only [isBlank, Bool.or_eq_true, Bool.and_eq_true, decide_eq_true_eq, beq_iff_eq] at h
    simp only [breakRuns, List.mem_cons, List.not_mem_nil, or_false, exists_eq_or_imp,
      exists_eq_left]
    grind
  · exact ⟨(0x2C, 0x2E), by decide, by decide⟩
  · exact ⟨(0x2C, 0x2E), by decide, by decide⟩

/-- No run of characters that separate holds a letter. -/
theorem breakRuns_apart_letters : (breakRuns.all fun taken =>
    (smallRuns ++ capitalRuns).all fun run => apart (taken.1, taken.2, 1) run) = true := by
  decide +kernel

/-- Cased letters separate nothing. -/
theorem not_isBreak_of_letter {c : Char} (h : isLower c = true ∨ isUpper c = true) :
    isBreak c = false := by
  rw [← Bool.not_eq_true]
  intro hbreak
  obtain ⟨taken, htaken, hfirst, hlast⟩ := exists_breakRun hbreak
  have hrun : ∃ run ∈ smallRuns ++ capitalRuns, inRun c.toNat run.1 run.2.1 run.2.2 = true := by
    simp only [List.mem_append, or_and_right, exists_or]
    exact h.imp isLower_iff.1 isUpper_iff.1
  obtain ⟨run, hrun, hin⟩ := hrun
  have hapart := List.all_eq_true.1 (List.all_eq_true.1 breakRuns_apart_letters taken htaken)
  exact not_inRun_of_apart (hapart run hrun) (inRun_iff.2 ⟨hfirst, hlast, Nat.mod_one _⟩) hin

theorem not_isSeparator_of_isUpper {c : Char} (h : isUpper c = true) : isSeparator c = false := by
  have hbreak := not_isBreak_of_letter (.inr h)
  simp only [isBreak, Bool.or_eq_false_iff] at hbreak
  exact hbreak.1.1

/-- A capital in lower case separates nothing. -/
theorem isBreak_lowered {c x : Char} (hupper : isUpper c = true) (hx : x ∈ lowered c) :
    isBreak x = false := by
  rcases lowered_cases hupper with rfl | hsame | ⟨y, hsmall, hy⟩
  · simp only [lowered_dotted, List.mem_cons, List.not_mem_nil, or_false] at hx
    rcases hx with rfl | rfl <;> decide
  · rw [hsame, List.mem_singleton] at hx
    rw [hx, not_isBreak_of_letter (.inr hupper)]
  · rw [hsmall, List.mem_singleton] at hx
    rw [hx, not_isBreak_of_letter (.inl hy)]

/-! ## One more character of a name -/

section

variable {last previous : Option Char} {c : Char}

theorem canonicalFrom_separator (hsep : isSeparator c = true) (rest : List Char) :
    canonicalFrom last previous (c :: rest) =
      if last.isSome && last != some '_' then '_' :: canonicalFrom (some '_') (some '_') rest
      else canonicalFrom last (some '_') rest := by
  rw [canonicalFrom, if_pos hsep]

theorem canonicalFrom_capital (hupper : isUpper c = true) (rest : List Char) :
    canonicalFrom last previous (c :: rest) =
      (if previous.any endsWord then ['_'] else []) ++
        (lowered c ++ canonicalFrom (lowered c).getLast? (some c) rest) := by
  rw [canonicalFrom, not_isSeparator_of_isUpper hupper, if_neg (by decide), if_pos hupper]

theorem canonicalFrom_other (hsep : isSeparator c = false) (hupper : isUpper c = false)
    (rest : List Char) :
    canonicalFrom last previous (c :: rest) = c :: canonicalFrom (some c) (some c) rest := by
  rw [canonicalFrom, hsep, if_neg (by decide), hupper, if_neg (by decide)]

end

/-! ## Characters of a canonical name -/

/-- Where a character of a canonical form comes from: it is an underscore, a character of the name
that is neither a separator nor a capital, or part of a capital of the name in lower case. -/
theorem origin_of_mem_canonicalFrom {last previous : Option Char} {name : List Char} {x : Char}
    (hx : x ∈ canonicalFrom last previous name) :
    x = '_' ∨ (x ∈ name ∧ isSeparator x = false ∧ isUpper x = false) ∨
      ∃ c ∈ name, isUpper c = true ∧ x ∈ lowered c := by
  induction name generalizing last previous with
  | nil => cases hx
  | cons c rest ih =>
    have hrest {last previous : Option Char} (h : x ∈ canonicalFrom last previous rest) :
        x = '_' ∨ (x ∈ c :: rest ∧ isSeparator x = false ∧ isUpper x = false) ∨
          ∃ d ∈ c :: rest, isUpper d = true ∧ x ∈ lowered d :=
      (ih h).imp_right (Or.imp (And.imp_left (List.mem_cons_of_mem c))
        fun ⟨d, hd, h⟩ => ⟨d, List.mem_cons_of_mem c hd, h⟩)
    unfold canonicalFrom at hx
    split at hx
    · split at hx
      · rcases List.mem_cons.1 hx with rfl | hx
        · exact .inl rfl
        · exact hrest hx
      · exact hrest hx
    · next hsep =>
      rw [Bool.not_eq_true] at hsep
      split at hx
      · next hupper =>
        rcases List.mem_append.1 hx with hx | hx
        · split at hx
          · exact .inl (List.mem_singleton.1 hx)
          · cases hx
        rcases List.mem_append.1 hx with hx | hx
        · exact .inr (.inr ⟨c, List.mem_cons_self, hupper, hx⟩)
        · exact hrest hx
      · next hupper =>
        rw [Bool.not_eq_true] at hupper
        rcases List.mem_cons.1 hx with rfl | hx
        · exact .inr (.inl ⟨List.mem_cons_self, hsep, hupper⟩)
        · exact hrest hx

theorem mem_canonicalFrom {last previous : Option Char} {name : List Char} {x : Char}
    (hx : x ∈ canonicalFrom last previous name) :
    isBreak x = false ∨ x ∈ name ∧ isSeparator x = false := by
  rcases origin_of_mem_canonicalFrom hx with rfl | ⟨hmem, hsep, -⟩ | ⟨c, -, hupper, hlower⟩
  · exact .inl (by decide)
  · exact .inr ⟨hmem, hsep⟩
  · exact .inl (isBreak_lowered hupper hlower)

/-- The characters of a canonical name separate nothing, but for commas and points of the name. -/
theorem mem_canonicalChars {name : List Char} {x : Char} (hx : x ∈ canonicalChars name) :
    isBreak x = false ∨ x ∈ name ∧ isSeparator x = false :=
  mem_canonicalFrom hx

theorem not_isSeparator_of_mem_canonical {name : String} {x : Char}
    (hx : x ∈ (canonical name).toList) : isSeparator x = false := by
  rw [canonical, String.toList_ofList] at hx
  rcases mem_canonicalChars hx with h | ⟨_, h⟩
  · simp only [isBreak, Bool.or_eq_false_iff] at h
    exact h.1.1
  · exact h

theorem not_isBlank_of_mem_canonical {name : String} {x : Char}
    (hx : x ∈ (canonical name).toList) : isBlank x = false := by
  have hsep := not_isSeparator_of_mem_canonical hx
  rw [isSeparator, Bool.or_eq_false_iff] at hsep
  exact hsep.2

/-- A comma or a point of a canonical name is one of the name. -/
theorem mem_of_mem_canonical {name : String} {x : Char} (hbreak : isBreak x = true)
    (hx : x ∈ (canonical name).toList) : x ∈ name.toList := by
  rw [canonical, String.toList_ofList] at hx
  rcases mem_canonicalChars hx with h | ⟨h, _⟩
  · rw [hbreak] at h
    cases h
  · exact h

end ParamQuery
