import Mathlib.Data.List.Chain
import ParamQuery.Proofs.CanonicalName

/-!
# Canonical forms of canonical forms

A canonical name is its own canonical form, unless it came from a name in which a capital with a
small letter stands directly before a capital without one, such as a letter of the mathematical
alphabets. The first becomes small, so that the second, which stays, starts a new word the next
time. After that time nothing changes any more.

## Main definitions

* `Keeps` — a character that canonical form leaves as it is.
* `Joins`, `Settles` — neighbours between which no underscore is missing: in a canonical name, and
  in the name that it came from.

## Main statements

* `canonicalFrom_eq_self_iff` — the texts that are their own canonical form.
* `isChain_canonicalFrom_iff` — the neighbours of a canonical name and those of the name.
* `canonical_idempotent_iff` — which canonical names are their own canonical form.
-/

namespace ParamQuery

open Text

variable {last previous : Option Char} {name : List Char} {a c x : Char}

/-! ## Characters -/

theorem isUpper_of_hasSmall (h : hasSmall c = true) : isUpper c = true := by
  simp only [hasSmall, Bool.and_eq_true] at h
  exact h.1.1

/-- No capital comes before the capital A. -/
theorem le_toNat_of_isUpper (h : isUpper c = true) : 0x41 ≤ c.toNat := by
  have hruns : ∀ run ∈ capitalRuns, 0x41 ≤ run.1 := by decide +kernel
  obtain ⟨run, hrun, hin⟩ := isUpper_iff.1 h
  exact (hruns run hrun).trans (inRun_iff.1 hin).1

/-- No capital is a small letter or a digit. -/
theorem not_endsWord_of_isUpper (h : isUpper c = true) : endsWord c = false := by
  rw [← Bool.not_eq_true, endsWord, Bool.or_eq_true]
  rintro (hlower | hdigit)
  · rw [not_isUpper_of_isLower hlower] at h
    cases h
  · have hle := (Char.isDigit_iff_toNat.1 hdigit).2
    exact absurd ((le_toNat_of_isUpper h).trans hle) (by decide)

theorem not_isUpper_of_isSeparator (h : isSeparator c = true) : isUpper c = false := by
  rw [← Bool.not_eq_true]
  intro hupper
  rw [not_isSeparator_of_isUpper hupper] at h
  cases h

/-- A character that canonical form leaves as it is: it is no separator, and if it is a capital it
has no small letter. -/
def Keeps (c : Char) : Prop := isSeparator c = false ∧ (isUpper c = true → lowered c = [c])

/-- Canonical names hold only characters that canonical form leaves as they are. -/
theorem keeps_of_mem_canonicalFrom (hx : x ∈ canonicalFrom last previous name) : Keeps x := by
  rcases origin_of_mem_canonicalFrom hx with rfl | ⟨-, hsep, hupper⟩ | ⟨c, -, hupper, hlower⟩
  · exact ⟨by decide, by decide⟩
  · refine ⟨hsep, fun h => ?_⟩
    rw [hupper] at h
    cases h
  · have hbreak := isBreak_lowered hupper hlower
    simp only [isBreak, Bool.or_eq_false_iff] at hbreak
    refine ⟨hbreak.1.1, fun h => ?_⟩
    rcases lowered_cases hupper with rfl | hsame | ⟨y, hsmall, hy⟩
    · rw [lowered_dotted] at hlower
      revert h
      rcases List.mem_pair.1 hlower with rfl | rfl <;> decide
    · rw [hsame, List.mem_singleton] at hlower
      rwa [hlower]
    · rw [hsmall, List.mem_singleton] at hlower
      rw [hlower, not_isUpper_of_isLower hy] at h
      cases h

/-! ## Neighbours -/

/-- Neighbours in a canonical name: the second starts no word behind the first. -/
def Joins (a c : Char) : Prop := ¬ (endsWord a = true ∧ isUpper c = true)

/-- Neighbours in a name: not a capital with a small letter before a capital without one. -/
def Settles (a c : Char) : Prop := ¬ (hasSmall a = true ∧ lacksSmall c = true)

theorem joins_of_not_isUpper (h : isUpper c = false) : Joins a c := by
  simp [Joins, h]

theorem settles_of_not_isUpper_left (h : isUpper a = false) : Settles a c := by
  simp [Settles, hasSmall, h]

theorem settles_of_not_isUpper_right (h : isUpper c = false) : Settles a c := by
  simp [Settles, lacksSmall, h]

/-- What suits every neighbour can be left out at the start of a chain. -/
theorem isChain_cons_of_forall {R : Char → Char → Prop} (h : ∀ b, R a b) :
    (a :: name).IsChain R ↔ name.IsChain R := by
  rw [List.isChain_cons]
  exact and_iff_right fun b _ => h b

/-- A capital behind another character, written in lower case. -/
theorem isChain_cons_lowered_append (hupper : isUpper c = true) (text : List Char) :
    (a :: (lowered c ++ text)).IsChain Joins ↔
      ¬ (endsWord a = true ∧ lacksSmall c = true) ∧
        ((lowered c).getLast?.getD '_' :: text).IsChain Joins := by
  have hjoins {x : Char} (hx : isUpper x = false) : Joins a x := joins_of_not_isUpper hx
  rcases lowered_cases hupper with rfl | hsame | ⟨x, hsmall, hx⟩
  · have hlacks : lacksSmall 'İ' = false := by decide
    have hdot : Joins 'i' '\u0307' := joins_of_not_isUpper (by decide)
    simp [lowered_dotted, hlacks, hdot, hjoins (x := 'i') (by decide)]
  · simp [hsame, lacksSmall, Joins, hupper]
  · simp [hsmall, lacksSmall, ne_of_isLower_of_isUpper hx hupper,
      hjoins (not_isUpper_of_isLower hx)]

/-! ## Texts that are their own canonical form -/

theorem any_endsWord_eq : previous.any endsWord = endsWord (previous.getD '_') := by
  cases previous with
  | none => decide
  | some p => rfl

/-- The texts that are left as they are after some character: all their characters are left as they
are, and no underscore is missing. The start counts as an underscore. -/
theorem canonicalFrom_eq_self_iff :
    canonicalFrom last previous name = name ↔
      (∀ c ∈ name, Keeps c) ∧ (previous.getD '_' :: name).IsChain Joins := by
  induction name generalizing last previous with
  | nil => simp [canonicalFrom]
  | cons c rest ih =>
    rw [List.forall_mem_cons, List.isChain_cons_cons]
    by_cases hkept : Keeps c
    · by_cases hupper : isUpper c = true
      · by_cases hends : endsWord (previous.getD '_') = true
        · -- an underscore is written before the capital, where the text has none
          have hjoins : ¬ Joins (previous.getD '_') c := fun h => h ⟨hends, hupper⟩
          have hne : c ≠ '_' := by
            rintro rfl
            exact absurd hupper (by decide)
          refine iff_of_false (fun heq => hne ?_) fun h => hjoins h.2.1
          rw [canonicalFrom_capital hupper, any_endsWord_eq, if_pos hends] at heq
          exact (List.cons.inj heq).1.symm
        · have hjoins : Joins (previous.getD '_') c := fun h => hends h.1
          rw [canonicalFrom_capital hupper, any_endsWord_eq, if_neg hends, List.nil_append,
            hkept.2 hupper, List.singleton_append, List.cons.injEq, and_iff_right rfl, ih]
          simp [hkept, hjoins]
      · have hjoins : Joins (previous.getD '_') c := fun h => hupper h.2
        rw [canonicalFrom_other hkept.1 (Bool.eq_false_iff.2 hupper), List.cons.injEq,
          and_iff_right rfl, ih]
        simp [hkept, hjoins]
    · refine iff_of_false (fun heq => hkept ?_) fun h => hkept h.1.1
      have hmem : c ∈ c :: rest := List.mem_cons_self
      rw [← heq] at hmem
      exact keeps_of_mem_canonicalFrom hmem

/-! ## Neighbours of a canonical name -/

/-- The last character written and the last one read, at some place of a name. -/
inductive Reached : (last previous : Option Char) → Prop
  | start : Reached none none
  /-- Behind separators at the start. -/
  | leading : Reached none (some '_')
  /-- Behind a character that was written as it is, or an underscore for a separator. -/
  | kept {c : Char} (h : isUpper c = false) : Reached (some c) (some c)
  | capital {c : Char} (h : isUpper c = true) : Reached (lowered c).getLast? (some c)

/-- Where no word ends in the name, one ends in the canonical name only behind a capital that became
small. -/
theorem Reached.endsWord_eq (h : Reached last previous)
    (hends : endsWord (previous.getD '_') = false) :
    endsWord (last.getD '_') = hasSmall (previous.getD '_') := by
  cases h with
  | start => decide
  | leading => decide
  | kept hupper => simpa [hasSmall, hupper] using hends
  | @capital c hupper =>
    rcases lowered_cases hupper with rfl | hsame | ⟨x, hsmall, hx⟩
    · decide
    · simp [hsame, hasSmall, not_endsWord_of_isUpper hupper]
    · have hdotted : c ≠ 'İ' := by
        rintro rfl
        cases hsmall
      simp [hsmall, hasSmall, endsWord, hx, hupper, ne_of_isLower_of_isUpper hx hupper, hdotted]

/-- No underscore is missing in a canonical name exactly if no capital with a small letter stands
before one without in the name. -/
theorem isChain_canonicalFrom_iff (h : Reached last previous) :
    (last.getD '_' :: canonicalFrom last previous name).IsChain Joins ↔
      (previous.getD '_' :: name).IsChain Settles := by
  induction name generalizing last previous with
  | nil => simp [canonicalFrom]
  | cons c rest ih =>
    rw [List.isChain_cons_cons]
    by_cases hsep : isSeparator c = true
    · have hupper := not_isUpper_of_isSeparator hsep
      have hrest {last : Option Char} (h : Reached last (some '_')) :
          (last.getD '_' :: canonicalFrom last (some '_') rest).IsChain Joins ↔
            rest.IsChain Settles :=
        (ih h).trans (isChain_cons_of_forall fun b => settles_of_not_isUpper_left (by decide))
      rw [canonicalFrom_separator hsep, and_iff_right (settles_of_not_isUpper_right hupper),
        isChain_cons_of_forall fun b => settles_of_not_isUpper_left hupper]
      by_cases hwritten : (last.isSome && last != some '_') = true
      · rw [if_pos hwritten, List.isChain_cons_cons,
          and_iff_right (joins_of_not_isUpper (by decide))]
        exact hrest (.kept (by decide))
      · rw [if_neg hwritten]
        refine hrest ?_
        cases last with
        | none => exact .leading
        | some z =>
          obtain rfl : z = '_' := by simpa using hwritten
          exact .kept (by decide)
    by_cases hupper : isUpper c = true
    · have hrest : ((lowered c).getLast?.getD '_' ::
          canonicalFrom (lowered c).getLast? (some c) rest).IsChain Joins ↔
          (c :: rest).IsChain Settles := ih (.capital hupper)
      rw [canonicalFrom_capital hupper, any_endsWord_eq, ← hrest]
      by_cases hends : endsWord (previous.getD '_') = true
      · -- the capital starts a word
        have hsettles : Settles (previous.getD '_') c := by
          refine settles_of_not_isUpper_left (Bool.eq_false_iff.2 fun hprevious => ?_)
          rw [not_endsWord_of_isUpper hprevious] at hends
          cases hends
        rw [if_pos hends, List.singleton_append, List.isChain_cons_cons,
          isChain_cons_lowered_append hupper]
        have hunderscore : endsWord '_' = false := by decide
        simp [hsettles, hunderscore, joins_of_not_isUpper (c := '_') (by decide)]
      · rw [Bool.not_eq_true] at hends
        rw [hends, if_neg (by decide), List.nil_append, isChain_cons_lowered_append hupper,
          h.endsWord_eq hends]
        rfl
    · rw [Bool.not_eq_true] at hsep hupper
      rw [canonicalFrom_other hsep hupper, List.isChain_cons_cons,
        and_iff_right (joins_of_not_isUpper hupper),
        and_iff_right (settles_of_not_isUpper_right hupper)]
      exact ih (.kept hupper)

/-! ## Canonical names -/

theorem canonicalChars_idempotent_iff :
    canonicalChars (canonicalChars name) = canonicalChars name ↔ name.IsChain Settles := by
  have hkeeps : ∀ c ∈ canonicalChars name, Keeps c := fun c hc => keeps_of_mem_canonicalFrom hc
  have hchain : ('_' :: canonicalChars name).IsChain Joins ↔ ('_' :: name).IsChain Settles :=
    isChain_canonicalFrom_iff .start
  have hfixed : canonicalChars (canonicalChars name) = canonicalChars name ↔
      (∀ c ∈ canonicalChars name, Keeps c) ∧ ('_' :: canonicalChars name).IsChain Joins :=
    canonicalFrom_eq_self_iff
  rw [hfixed, and_iff_right hkeeps, hchain]
  exact isChain_cons_of_forall fun b => settles_of_not_isUpper_left (by decide)

theorem Keeps.not_hasSmall (h : Keeps c) : hasSmall c = false := by
  rw [← Bool.not_eq_true]
  intro hsmall
  simp [hasSmall, h.2 (isUpper_of_hasSmall hsmall)] at hsmall

/-- No capital of a canonical name has a small letter, so nothing stands before another one that
could become small. -/
theorem isChain_canonicalChars : (canonicalChars name).IsChain Settles := by
  rw [List.isChain_iff_forall_rel_of_append_cons_cons]
  intro a c before after heq hboth
  have hmem : a ∈ canonicalChars name := by simp [heq]
  rw [(keeps_of_mem_canonicalFrom hmem).not_hasSmall] at hboth
  cases hboth.1

/-- A canonical name holds no dash, no white space and no capital of ASCII. It is its own canonical
form exactly if the name holds nowhere a capital with a small letter directly before a capital
without one, and its canonical form always is. -/
theorem canonical_idempotent_iff (name : String) :
    (∀ c ∈ (canonical name).toList, c ≠ '-' ∧ isBlank c = false ∧ c.isUpper = false) ∧
      (canonical (canonical name) = canonical name ↔
        name.toList.IsChain fun a c => ¬ (hasSmall a = true ∧ lacksSmall c = true)) ∧
      canonical (canonical (canonical name)) = canonical (canonical name) := by
  have htoList (name : String) : (canonical name).toList = canonicalChars name.toList :=
    String.toList_ofList
  refine ⟨fun c hc => ?_, ?_, ?_⟩
  · have hkept : Keeps c := keeps_of_mem_canonicalFrom (htoList name ▸ hc)
    have hsep := hkept.1
    rw [isSeparator, Bool.or_eq_false_iff, beq_eq_false_iff_ne] at hsep
    refine ⟨hsep.1, hsep.2, Bool.eq_false_iff.2 fun hascii => ?_⟩
    exact absurd (hasSmall_of_ascii hascii) (by simp [hkept.not_hasSmall])
  · rw [← String.toList_inj, htoList, htoList]
    exact canonicalChars_idempotent_iff
  · rw [← String.toList_inj, htoList, htoList, htoList]
    exact canonicalChars_idempotent_iff.2 isChain_canonicalChars

/-- A capital with a small letter before one without: the canonical form of this name is not its
own canonical form. -/
theorem canonical_unsettled :
    canonical "A𝐀" = "a𝐀" ∧ canonical (canonical "A𝐀") = "a_𝐀" := by
  decide

end ParamQuery
