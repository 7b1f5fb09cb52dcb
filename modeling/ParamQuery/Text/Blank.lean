/-!
# White space

The characters with the Unicode property `White_Space`, and text without white space at its ends.

## Main statements

* `trim_of_head_of_last` — text that neither starts nor ends with white space is unchanged.
-/

namespace ParamQuery.Text

/-- The Unicode property `White_Space`. -/
def isBlank (c : Char) : Bool :=
  let n := c.toNat
  (9 ≤ n && n ≤ 13) || n == 0x20 || n == 0x85 || n == 0xA0 || n == 0x1680 ||
    (0x2000 ≤ n && n ≤ 0x200A) || n == 0x2028 || n == 0x2029 || n == 0x202F ||
    n == 0x205F || n == 0x3000

/-- Text without the white space at its start. -/
def trimLeft (text : List Char) : List Char :=
  text.dropWhile isBlank

/-- Text without the white space at its end. -/
def trimRight (text : List Char) : List Char :=
  (text.reverse.dropWhile isBlank).reverse

/-- Text without the white space at its two ends. -/
def trim (text : List Char) : List Char :=
  trimRight (trimLeft text)

@[simp] theorem trim_nil : trim [] = [] := rfl

theorem trimLeft_of_head {text : List Char} (h : ∀ c, text.head? = some c → isBlank c = false) :
    trimLeft text = text := by
  cases text with
  | nil => rfl
  | cons c rest => simp [trimLeft, h c rfl]

theorem trimRight_of_last {text : List Char}
    (h : ∀ c, text.getLast? = some c → isBlank c = false) : trimRight text = text := by
  have h' : trimLeft text.reverse = text.reverse :=
    trimLeft_of_head fun c hc => h c (by simpa using hc)
  simpa [trimRight, trimLeft] using congrArg List.reverse h'

theorem trim_of_head_of_last {text : List Char}
    (hhead : ∀ c, text.head? = some c → isBlank c = false)
    (hlast : ∀ c, text.getLast? = some c → isBlank c = false) : trim text = text := by
  rw [trim, trimLeft_of_head hhead, trimRight_of_last hlast]

end ParamQuery.Text
