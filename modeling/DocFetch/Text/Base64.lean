/-! # Base64 with padding -/

namespace DocFetch.Text

def base64Digit (n : Nat) : Char :=
  if n < 26 then Char.ofNat (65 + n)
  else if n < 52 then Char.ofNat (71 + n)
  else if n < 62 then Char.ofNat (n - 4)
  else if n = 62 then '+' else '/'

def base64Chars : List UInt8 → List Char
  | [] => []
  | [a] =>
    let n := a.toNat
    [base64Digit (n / 4), base64Digit (n % 4 * 16), '=', '=']
  | [a, b] =>
    let n := a.toNat * 256 + b.toNat
    [base64Digit (n / 1024), base64Digit (n / 16 % 64), base64Digit (n % 16 * 4), '=']
  | a :: b :: c :: rest =>
    let n := (a.toNat * 256 + b.toNat) * 256 + c.toNat
    base64Digit (n / 262144) :: base64Digit (n / 4096 % 64) :: base64Digit (n / 64 % 64) ::
      base64Digit (n % 64) :: base64Chars rest

def encodeBase64 (b : ByteArray) : String := String.ofList (base64Chars b.data.toList)

def base64Value? (c : Char) : Option Nat :=
  if 'A' ≤ c ∧ c ≤ 'Z' then some (c.toNat - 65)
  else if 'a' ≤ c ∧ c ≤ 'z' then some (c.toNat - 71)
  else if '0' ≤ c ∧ c ≤ '9' then some (c.toNat + 4)
  else if c = '+' then some 62
  else if c = '/' then some 63
  else none

/-- Reads groups of four digits; padding ends the text. -/
def base64Bytes : List Char → Option (List UInt8)
  | [] => some []
  | [a, b, '=', '='] => do
    let n := (← base64Value? a) * 64 + (← base64Value? b)
    return [UInt8.ofNat (n / 16)]
  | [a, b, c, '='] => do
    let n := ((← base64Value? a) * 64 + (← base64Value? b)) * 64 + (← base64Value? c)
    return [UInt8.ofNat (n / 1024), UInt8.ofNat (n / 4)]
  | a :: b :: c :: d :: rest => do
    let n := (((← base64Value? a) * 64 + (← base64Value? b)) * 64 + (← base64Value? c)) * 64 +
      (← base64Value? d)
    return UInt8.ofNat (n / 65536) :: UInt8.ofNat (n / 256) :: UInt8.ofNat n :: (← base64Bytes rest)
  | _ => none

def decodeBase64? (s : String) : Option ByteArray :=
  (base64Bytes s.toList).map fun l => ⟨l.toArray⟩

theorem base64Value?_base64Digit {n : Nat} (h : n < 64) : base64Value? (base64Digit n) = some n := by
  have hall : ∀ m < 64, base64Value? (base64Digit m) = some m := by decide
  exact hall n h

theorem base64Digit_ne_padding {n : Nat} (h : n < 64) : base64Digit n ≠ '=' := by
  have hall : ∀ m < 64, base64Digit m ≠ '=' := by decide
  exact hall n h

private theorem ofNat_low (high : Nat) (b : UInt8) : UInt8.ofNat (high * 256 + b.toNat) = b := by
  have hb := b.toNat_lt
  apply UInt8.toNat_inj.mp
  rw [UInt8.toNat_ofNat']
  omega

/-- Bytes are read back from their digits, three of them from four digits and the last ones from padded digits. -/
theorem base64Bytes_base64Chars (l : List UInt8) : base64Bytes (base64Chars l) = some l := by
  fun_induction base64Chars l with
  | case1 => rfl
  | case2 a n =>
    have ha : n < 256 := a.toNat_lt
    have hbits : (n / 4 * 64 + n % 4 * 16) / 16 = 0 * 256 + n := by omega
    simp only [base64Bytes]
    rw [base64Value?_base64Digit (by omega), base64Value?_base64Digit (by omega)]
    simp only [Option.bind_eq_bind, Option.bind_some, hbits]
    rw [ofNat_low]
    rfl
  | case3 a b n =>
    have ha := a.toNat_lt
    have hb := b.toNat_lt
    have hn : n < 65536 := by omega
    have hbits : (n / 1024 * 64 + n / 16 % 64) * 64 + n % 16 * 4 = n * 4 := by omega
    have hfirst : n * 4 / 1024 = 0 * 256 + a.toNat := by omega
    have hsecond : n * 4 / 4 = a.toNat * 256 + b.toNat := by omega
    have hpad : base64Digit (n % 16 * 4) ≠ '=' := base64Digit_ne_padding (by omega)
    rw [base64Bytes]
    · rw [base64Value?_base64Digit (by omega), base64Value?_base64Digit (by omega), base64Value?_base64Digit (by omega)]
      simp only [Option.bind_eq_bind, Option.bind_some, hbits, hfirst, hsecond]
      rw [ofNat_low, ofNat_low]
      rfl
    · exact fun heq => absurd heq hpad
  | case4 a b c rest n ih =>
    have ha := a.toNat_lt
    have hb := b.toNat_lt
    have hc := c.toNat_lt
    have hn : n < 16777216 := by omega
    have hbits : ((n / 262144 * 64 + n / 4096 % 64) * 64 + n / 64 % 64) * 64 + n % 64 = n := by omega
    have hfirst : n / 65536 = 0 * 256 + a.toNat := by omega
    have hsecond : n / 256 = a.toNat * 256 + b.toNat := by omega
    have hthird : n = (a.toNat * 256 + b.toNat) * 256 + c.toNat := rfl
    have hpad : base64Digit (n % 64) ≠ '=' := base64Digit_ne_padding (by omega)
    rw [base64Bytes]
    · rw [base64Value?_base64Digit (by omega), base64Value?_base64Digit (by omega), base64Value?_base64Digit (by omega),
        base64Value?_base64Digit (by omega), ih]
      simp only [Option.bind_eq_bind, Option.bind_some, hbits, hfirst, hsecond]
      rw [ofNat_low, ofNat_low, hthird, ofNat_low]
      rfl
    · exact fun _ heq _ => hpad heq
    · exact fun heq _ => hpad heq

theorem decodeBase64?_encodeBase64 (b : ByteArray) : decodeBase64? (encodeBase64 b) = some b := by
  unfold decodeBase64? encodeBase64
  rw [String.toList_ofList, base64Bytes_base64Chars]
  rfl

example : encodeBase64 ⟨#[0xff, 0xfe]⟩ = "//4=" := by decide +kernel
example : decodeBase64? "//4=" = some ⟨#[0xff, 0xfe]⟩ := by decide +kernel

end DocFetch.Text
