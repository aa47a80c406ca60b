import PurlValidator.Python.Text

/-!
# Numerals

`int(s)` reads a numeral: white space around it, a sign, and digits, which may be grouped by
single underscores.  The digits may be those of any script.  The white space is not quite
that of `str.strip`: the four information separators are not accepted.  `UnicodeData` is what
is used of the Unicode database.

`UnicodeData.int_toDigits` says that the numerals that programs print are read as they were
meant.
-/

namespace Py

/-- The decimal digits of Unicode with their values, and the code points that are printable.
Below 128 the digits are `0` to `9`. -/
structure UnicodeData where
  decimal? : CodePoint → Option Nat
  printable : CodePoint → Bool
  decimal?_ascii : ∀ {p : CodePoint}, p.val < 128 →
    decimal? p = if 48 ≤ p.val ∧ p.val ≤ 57 then some (p.val - 48) else none

/-! ## Messages -/

/-- A number in hexadecimal digits, at least `width` of them. -/
def hex (width n : Nat) : Str := Str.ofChars ((Nat.toDigits 16 n).leftpad width '0')

/-- How a code point is written between the quotes. -/
def UnicodeData.reprPoint (u : UnicodeData) (quote p : CodePoint) : Str :=
  if p = quote ∨ p = CodePoint.ofChar '\\' then [CodePoint.ofChar '\\', p]
  else if p = CodePoint.ofChar '\t' then Str.lit "\\t"
  else if p = lf then Str.lit "\\n"
  else if p = cr then Str.lit "\\r"
  else if (32 ≤ p.val ∧ p.val < 127) ∨ (127 < p.val ∧ u.printable p) then [p]
  else if p.val < 0x100 then Str.lit "\\x" ++ hex 2 p.val
  else if p.val < 0x10000 then Str.lit "\\u" ++ hex 4 p.val
  else Str.lit "\\U" ++ hex 8 p.val

/-- `repr(s)`.  Double quotes are used only around single ones. -/
def UnicodeData.repr (u : UnicodeData) (s : Str) : Str :=
  let single : CodePoint := 0x27
  let double : CodePoint := 0x22
  let quote := if single ∈ s ∧ double ∉ s then double else single
  quote :: s.flatMap (u.reprPoint quote) ++ [quote]

/-- The message for what is no numeral. -/
def UnicodeData.invalidLiteral (u : UnicodeData) (s : Str) : Str :=
  Str.lit "invalid literal for int() with base 10: " ++ (u.repr s).take 200

/-- `sys.int_info.default_max_str_digits`. -/
def defaultMaxStrDigits : Nat := 4300

/-- The message for a numeral that is too long. -/
def exceedsLimit (digits : Nat) : Str :=
  Str.lit ("Exceeds the limit (" ++ toString defaultMaxStrDigits ++ " digits) for integer " ++
    "string conversion: value has " ++ toString digits ++
    " digits; use sys.set_int_max_str_digits() to increase the limit")

/-! ## Reading -/

/-- Take off what satisfies `p` from both ends. -/
def trim (p : CodePoint → Bool) (s : Str) : Str := (s.dropWhile p).rdropWhile p

/-- Where nothing satisfies `p`, nothing is taken off. -/
theorem trim_eq_self {p : CodePoint → Bool} {s : Str} (h : ∀ q ∈ s, p q = false) :
    trim p s = s := by
  have hdrop : s.dropWhile p = s := by
    cases s with
    | nil => rfl
    | cons q s => exact List.dropWhile_cons_of_neg (Bool.eq_false_iff.mp (h q List.mem_cons_self))
  rw [trim, hdrop, List.rdropWhile_eq_self_iff]
  exact fun hne => Bool.eq_false_iff.mp (h _ (List.getLast_mem hne))

def underscore : CodePoint := CodePoint.ofChar '_'

/-- The white space that may stand around a numeral. -/
def isNumeralSpace (p : CodePoint) : Bool := isSpace p && !(28 ≤ p.val && p.val ≤ 31)

namespace UnicodeData

variable (u : UnicodeData)

/-- The number that `t` stands for, what is left of `s` without white space and sign.  The
digits are counted before it is known that nothing follows them. -/
def absInteger (s t : Str) : Except Str Nat :=
  let run := t.takeWhile fun p => p == underscore || (u.decimal? p).isSome
  let digits := run.filterMap u.decimal?
  if [] ∈ run.splitOn underscore then .error (u.invalidLiteral s)
  else if digits.length > defaultMaxStrDigits then .error (exceedsLimit digits.length)
  else if run ≠ t then .error (u.invalidLiteral s)
  else .ok (digits.foldl (fun n d => 10 * n + d) 0)

/-- `int(s)`, or the message of the `ValueError`. -/
def int (s : Str) : Except Str Int :=
  match trim isNumeralSpace s with
  | [] => .error (u.invalidLiteral s)
  | p :: t =>
      if p = CodePoint.ofChar '-' then (u.absInteger s t).map fun n => -(n : Int)
      else if p = CodePoint.ofChar '+' then (u.absInteger s t).map Int.ofNat
      else (u.absInteger s (p :: t)).map Int.ofNat

end UnicodeData

/-! ## Digits -/

variable {u : UnicodeData} {c : Char} {digits : List Char}

theorem isNumeralSpace_of_isDigit (h : c.isDigit = true) :
    isNumeralSpace (CodePoint.ofChar c) = false := by
  obtain ⟨hlow, hhigh⟩ := isDigit_iff.mp h
  have hval : (CodePoint.ofChar c).val = c.toNat := rfl
  have hspace : isSpace (CodePoint.ofChar c) = false := by
    simp only [isSpace, hval, Bool.or_eq_false_iff, Bool.and_eq_false_iff, decide_eq_false_iff_not,
      beq_eq_false_iff_ne]
    omega
  rw [isNumeralSpace, hspace, Bool.false_and]

namespace UnicodeData

theorem decimal?_of_isDigit (h : c.isDigit = true) :
    u.decimal? (CodePoint.ofChar c) = some (c.toNat - 48) := by
  obtain ⟨hlow, hhigh⟩ := isDigit_iff.mp h
  have hval : (CodePoint.ofChar c).val = c.toNat := rfl
  rw [u.decimal?_ascii (by omega), hval, if_pos ⟨hlow, hhigh⟩]

/-- The values of ASCII digits. -/
theorem filterMap_decimal? (h : ∀ c ∈ digits, c.isDigit = true) :
    (Str.ofChars digits).filterMap u.decimal? = digits.map fun c => c.toNat - 48 := by
  rw [Str.ofChars, List.filterMap_map, ← List.filterMap_eq_map]
  exact List.filterMap_congr fun c hc => decimal?_of_isDigit (h c hc)

/-- Digits are a numeral, unless there are none or too many. -/
theorem absInteger_ofChars (s : Str) (hne : digits ≠ []) (h : ∀ c ∈ digits, c.isDigit = true)
    (hlength : digits.length ≤ defaultMaxStrDigits) :
    u.absInteger s (Str.ofChars digits) = .ok (Nat.ofDigitChars 10 digits 0) := by
  have hrun : (Str.ofChars digits).takeWhile
      (fun p => p == underscore || (u.decimal? p).isSome) = Str.ofChars digits := by
    refine List.takeWhile_eq_self_iff.mpr (List.forall_mem_map.mpr fun c hc => ?_)
    rw [decimal?_of_isDigit (h c hc), Option.isSome_some, Bool.or_true]
  have hsplit : (Str.ofChars digits).splitOn underscore = [Str.ofChars digits] := by
    refine List.splitOnP_eq_singleton (List.forall_mem_map.mpr fun c hc => ?_)
    refine beq_eq_false_iff_ne.mpr fun heq => ?_
    have hdigit : '_'.isDigit = true := CodePoint.ofChar_inj.mp heq ▸ h c hc
    cases hdigit
  have hnil : [] ∉ [Str.ofChars digits] := by
    rw [List.mem_singleton]
    exact fun heq => hne (List.map_eq_nil_iff.mp heq.symm)
  simp only [absInteger, hrun, hsplit, if_neg hnil, filterMap_decimal? h, List.length_map,
    if_neg hlength.not_gt, ne_eq, not_true_eq_false, if_false, List.foldl_map,
    Nat.ofDigitChars_eq_foldl]
  rfl

/-- The number that a program prints is the number that `int` reads. -/
theorem int_toDigits {n : Nat} (h : (Nat.toDigits 10 n).length ≤ defaultMaxStrDigits) :
    u.int (Str.ofChars (Nat.toDigits 10 n)) = .ok (n : Int) := by
  have hdigits : ∀ c ∈ Nat.toDigits 10 n, c.isDigit = true := fun c hc =>
    Nat.isDigit_of_mem_toDigits (by omega) (by omega) hc
  have hspace : ∀ p ∈ Str.ofChars (Nat.toDigits 10 n), isNumeralSpace p = false :=
    List.forall_mem_map.mpr fun c hc => isNumeralSpace_of_isDigit (hdigits c hc)
  have habs := absInteger_ofChars (u := u) (Str.ofChars (Nat.toDigits 10 n))
    Nat.toDigits_ne_nil hdigits h
  rw [Nat.ofDigitChars_ten_toDigits] at habs
  rw [int, trim_eq_self hspace]
  match hn : Nat.toDigits 10 n with
  | [] => exact absurd hn Nat.toDigits_ne_nil
  | c :: digits =>
      rw [hn] at habs hdigits
      have hc : c.isDigit = true := hdigits c List.mem_cons_self
      have hsign : ∀ s : Char, s.isDigit = false → CodePoint.ofChar c ≠ CodePoint.ofChar s := by
        intro s hs heq
        rw [CodePoint.ofChar_inj.mp heq, hs] at hc
        cases hc
      show (if CodePoint.ofChar c = _ then _ else _) = _
      rw [if_neg (hsign '-' rfl), if_neg (hsign '+' rfl)]
      exact congrArg (Except.map Int.ofNat) habs

end UnicodeData

end Py
