/-!
# Base64

Bytes in groups of three as four characters of the standard alphabet, the last group filled up
with `=`.
-/

namespace ParamQuery.Text

/-- The standard alphabet: capital letters, small letters, digits, `+` and `/`. -/
def base64Digit (n : Nat) : Char :=
  if n < 26 then Char.ofNat (65 + n)
  else if n < 52 then Char.ofNat (97 + (n - 26))
  else if n < 62 then Char.ofNat (48 + (n - 52))
  else if n = 62 then '+'
  else '/'

/-- Three bytes become four characters; two become three and a `=`, one becomes two and two `=`. -/
def base64 : List UInt8 → List Char
  | [] => []
  | [a] =>
    let n := a.toNat * 16
    [base64Digit (n / 64), base64Digit (n % 64), '=', '=']
  | [a, b] =>
    let n := (a.toNat * 256 + b.toNat) * 4
    [base64Digit (n / 4096), base64Digit (n / 64 % 64), base64Digit (n % 64), '=']
  | a :: b :: c :: rest =>
    let n := (a.toNat * 256 + b.toNat) * 256 + c.toNat
    base64Digit (n / 262144) :: base64Digit (n / 4096 % 64) ::
      base64Digit (n / 64 % 64) :: base64Digit (n % 64) :: base64 rest

example : base64 [0xFF, 0x00] = "/wA=".toList := by decide

end ParamQuery.Text
