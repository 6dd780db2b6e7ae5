import Mathlib.Algebra.Group.Int.Defs
import Mathlib.Data.List.Nodup
import Mathlib.Data.Rat.Defs
import VpnHide.Lib.CString

/-!
# The JSON parser (`kmod/parson.c`)

`json_parse_string` as it reads a C string: the rest of the string takes the place of the pointer. It accepts a little
more than JSON (a comma behind the last element, anything behind the root value) and refuses a little of it (repeated
names, names with a NUL). What it accepts has distinct names without NULs (`jsonParseString_wf`).
-/

namespace VpnHide

/-- `JSON_Value`; a number is the exact value of the double, strings and names are bytes. -/
inductive JsonValue where
  | null
  | boolean (b : Bool)
  | number (x : ℚ)
  | string (chars : List UInt8)
  | array (items : List JsonValue)
  | object (members : List (List UInt8 × JsonValue))

abbrev Members := List (List UInt8 × JsonValue)

/-! ### Strings -/

def quoteByte : UInt8 := 0x22
def backslashByte : UInt8 := 0x5c
def openBrace : UInt8 := 0x7b
def closeBrace : UInt8 := 0x7d
def openBracket : UInt8 := 0x5b
def closeBracket : UInt8 := 0x5d

def skipWhitespaces (s : List UInt8) : List UInt8 := s.dropWhile isSpace

/-- The loop of `skip_quotes`: the text up to the closing quote, and what follows that. -/
def quotedText : List UInt8 → Option (List UInt8 × List UInt8)
  | [] => none
  | c :: s =>
    if c = quoteByte then some ([], s)
    else if c = backslashByte then
      match s with
      | [] => none
      | d :: s => (quotedText s).map fun (raw, rest) => (c :: d :: raw, rest)
    else (quotedText s).map fun (raw, rest) => (c :: raw, rest)

/-- `skip_quotes`. -/
def skipQuotes (s : List UInt8) : Option (List UInt8 × List UInt8) :=
  if s.headD 0 = quoteByte then quotedText s.tail else none

def hexCharToInt (c : UInt8) : Option ℕ := digitValue 16 c

def parseUtf16Hex (a b c d : UInt8) : Option ℕ := do
  let x1 ← hexCharToInt a
  let x2 ← hexCharToInt b
  let x3 ← hexCharToInt c
  let x4 ← hexCharToInt d
  return x1 <<< 12 ||| x2 <<< 8 ||| x3 <<< 4 ||| x4

/-- The bytes `parse_utf16` writes for a code point. -/
def encodeUtf8 (cp : ℕ) : List UInt8 :=
  if cp < 0x80 then [.ofNat cp]
  else if cp < 0x800 then [.ofNat (cp >>> 6 &&& 0x1f ||| 0xc0), .ofNat (cp &&& 0x3f ||| 0x80)]
  else if cp < 0x10000 then
    [.ofNat (cp >>> 12 &&& 0x0f ||| 0xe0), .ofNat (cp >>> 6 &&& 0x3f ||| 0x80), .ofNat (cp &&& 0x3f ||| 0x80)]
  else
    [.ofNat (cp >>> 18 &&& 0x07 ||| 0xf0), .ofNat (cp >>> 12 &&& 0x3f ||| 0x80), .ofNat (cp >>> 6 &&& 0x3f ||| 0x80),
      .ofNat (cp &&& 0x3f ||| 0x80)]

/-- The escapes of one character. -/
def simpleEscape (c : UInt8) : Option UInt8 :=
  if c = quoteByte then some quoteByte
  else if c = backslashByte then some backslashByte
  else if c = '/'.toUInt8 then some '/'.toUInt8
  else if c = 'b'.toUInt8 then some 0x08
  else if c = 'f'.toUInt8 then some 0x0c
  else if c = 'n'.toUInt8 then some 0x0a
  else if c = 'r'.toUInt8 then some 0x0d
  else if c = 't'.toUInt8 then some 0x09
  else none

/-- `process_string`, with `parse_utf16`. The text is that between two quotes, so a backslash is never its last byte. -/
def processString : List UInt8 → Option (List UInt8)
  | [] => some []
  | c :: s =>
    if c ≠ backslashByte then
      if c < 0x20 then none else (processString s).map (c :: ·)
    else match s with
      | [] => none
      | e :: s =>
        if e ≠ 'u'.toUInt8 then (simpleEscape e).bind fun c => (processString s).map (c :: ·)
        else match s with
          | h1 :: h2 :: h3 :: h4 :: s =>
            match parseUtf16Hex h1 h2 h3 h4 with
            | none => none
            | some cp =>
              if cp < 0xd800 ∨ 0xdfff < cp then (processString s).map (encodeUtf8 cp ++ ·)
              else if 0xdbff < cp then none
              else match s with
                | b :: u :: t1 :: t2 :: t3 :: t4 :: s =>
                  if b ≠ backslashByte ∨ u ≠ 'u'.toUInt8 then none
                  else match parseUtf16Hex t1 t2 t3 t4 with
                    | none => none
                    | some trail =>
                      if trail < 0xdc00 ∨ 0xdfff < trail then none
                      else
                        let cp := ((cp - 0xd800 &&& 0x3ff) <<< 10 ||| (trail - 0xdc00 &&& 0x3ff)) + 0x10000
                        (processString s).map (encodeUtf8 cp ++ ·)
                | _ => none
          | _ => none

/-- `get_quoted_string`: the string, and what follows it. -/
def getQuotedString (s : List UInt8) : Option (List UInt8 × List UInt8) := do
  let (raw, rest) ← skipQuotes s
  let chars ← processString raw
  return (chars, rest)

/-! ### Numbers -/

/-- The quotient rounded to the nearest integer, and to the even one of two. -/
def roundHalfEven (num den : ℕ) : ℕ :=
  if 2 * (num % den) < den ∨ 2 * (num % den) = den ∧ num / den % 2 = 0 then num / den else num / den + 1

/-- The double next to `num / den`; `none` beyond the largest one. -/
def toDouble (num den : ℕ) : Option ℚ :=
  let log : ℤ := num.log2 - den.log2
  -- the exponent of the leading bit
  let log := if num * 2 ^ (-log).toNat < den * 2 ^ log.toNat then log - 1 else log
  let exponent := max (log - 52) (-1074)
  let mantissa := roundHalfEven (num * 2 ^ (-exponent).toNat) (den * 2 ^ exponent.toNat)
  if 2 ^ 1024 ≤ mantissa * 2 ^ exponent.toNat then none
  else some (mkRat (mantissa * 2 ^ exponent.toNat) (2 ^ (-exponent).toNat))

def isDigit (c : UInt8) : Bool := '0'.toUInt8 ≤ c && c ≤ '9'.toUInt8

def toLower (c : UInt8) : UInt8 := if 'A'.toUInt8 ≤ c ∧ c ≤ 'Z'.toUInt8 then c + 32 else c

/-- Behind the sign, `strtod` reads an infinity or a NaN. -/
def isInfOrNan (s : List UInt8) : Bool := (s.take 3).map toLower ∈ [bytesOf "inf", bytesOf "nan"]

/-- Behind the sign, `strtod` reads a hexadecimal number. -/
def isHexFloat (s : List UInt8) : Bool :=
  s.headD 0 == '0'.toUInt8 && toLower (s.tail.headD 0) == 'x'.toUInt8 &&
    let s := s.drop 2
    (digitValue 16 ((if s.headD 0 = '.'.toUInt8 then s.tail else s).headD 0)).isSome

def skipMinus (s : List UInt8) : List UInt8 := if s.headD 0 = '-'.toUInt8 then s.tail else s

/-- The digits behind a decimal point, and what follows them. -/
def readFraction (s : List UInt8) : List UInt8 × List UInt8 :=
  if s.headD 0 = '.'.toUInt8 then (s.tail.takeWhile isDigit, s.tail.dropWhile isDigit) else ([], s)

/-- The sign of an exponent is skipped. -/
def exponentDigits (s : List UInt8) : List UInt8 :=
  if s.headD 0 = '-'.toUInt8 ∨ s.headD 0 = '+'.toUInt8 then s.tail else s

/-- The exponent of a decimal number, and what follows it. -/
def readExponent (s : List UInt8) : ℤ × List UInt8 :=
  if toLower (s.headD 0) = 'e'.toUInt8 ∧ isDigit ((exponentDigits s.tail).headD 0) then
    let value := digitsValue 10 (leadingDigits 10 (exponentDigits s.tail))
    (if s.tail.headD 0 = '-'.toUInt8 then -value else value, (exponentDigits s.tail).dropWhile isDigit)
  else (0, s)

/-- The decimal number that `strtod` reads: its digits, the exponent of the last one, and what follows the number. -/
def readDecimal (s : List UInt8) : Option (ℕ × ℤ × List UInt8) :=
  let whole := s.takeWhile isDigit
  let (fraction, s) := readFraction (s.dropWhile isDigit)
  if whole ++ fraction = [] then none
  else
    let (exponent, rest) := readExponent s
    some (digitsValue 10 (leadingDigits 10 (whole ++ fraction)), exponent - fraction.length, rest)

def isDecimal (text : List UInt8) : Bool :=
  if 1 < text.length ∧ text.headD 0 = '0'.toUInt8 ∧ text.tail.headD 0 ≠ '.'.toUInt8 then false
  else if 2 < text.length ∧ strncmpEq 2 text (bytesOf "-0") ∧ text.tail.tail.headD 0 ≠ '.'.toUInt8 then false
  else !text.any fun c => toLower c = 'x'.toUInt8

/-- `parse_number_value`, with `strtod`. Where nothing is converted the number is zero. -/
def parseNumberValue (s : List UInt8) : Option (JsonValue × List UInt8) :=
  if isInfOrNan (skipMinus s) ∨ isHexFloat (skipMinus s) then none
  else match readDecimal (skipMinus s) with
    | none => some (.number 0, s)
    | some (digits, exponent, rest) =>
      if !isDecimal (s.take (s.length - rest.length)) then none
      else (toDouble (digits * 10 ^ exponent.toNat) (10 ^ (-exponent).toNat)).map fun x =>
        (.number (if s.headD 0 = '-'.toUInt8 then -x else x), rest)

/-! ### Values -/

def parseStringValue (s : List UInt8) : Option (JsonValue × List UInt8) :=
  (getQuotedString s).map fun (chars, rest) => (.string chars, rest)

def parseBooleanValue (s : List UInt8) : Option (JsonValue × List UInt8) :=
  if strncmpEq 4 (bytesOf "true") s then some (.boolean true, s.drop 4)
  else if strncmpEq 5 (bytesOf "false") s then some (.boolean false, s.drop 5)
  else none

def parseNullValue (s : List UInt8) : Option (JsonValue × List UInt8) :=
  if strncmpEq 4 (bytesOf "null") s then some (.null, s.drop 4) else none

/-- `json_object_add`: a name that is there already is refused. -/
def jsonObjectAdd (members : Members) (name : List UInt8) (value : JsonValue) : Option Members :=
  if name ∈ members.map Prod.fst then none else some (members ++ [(name, value)])

/-- The end of an object or array. -/
def closeWith (close : UInt8) (s : List UInt8) : Option (List UInt8) :=
  if (skipWhitespaces s).headD 0 = close then some (skipWhitespaces s).tail else none

section Containers
variable (parse : List UInt8 → Option (JsonValue × List UInt8))

/-- One turn of the loop in `parse_object_value`, up to the comma. -/
def parseMember (members : Members) (s : List UInt8) : Option (Members × List UInt8) := do
  let (key, s) ← getQuotedString s
  -- names with embedded NULs are not supported
  if (0 : UInt8) ∈ key then none
  let s := skipWhitespaces s
  if s.headD 0 ≠ ':'.toUInt8 then none
  let (value, s) ← parse s.tail
  let members ← jsonObjectAdd members key value
  return (members, skipWhitespaces s)

def parseItem (items : List JsonValue) (s : List UInt8) : Option (List JsonValue × List UInt8) := do
  let (value, s) ← parse s
  return (items ++ [value], skipWhitespaces s)

/-- The loop over the elements of an object or array. Each turn reads at least one byte. -/
def parseElements {β : Type} (close : UInt8) (element : List β → List UInt8 → Option (List β × List UInt8)) :
    ℕ → List β → List UInt8 → Option (List β × List UInt8)
  | 0, _, _ => none
  | fuel + 1, elements, s =>
    if s = [] then none
    else match element elements s with
      | none => none
      | some (elements, s) =>
        if s.headD 0 ≠ ','.toUInt8 then (closeWith close s).map (elements, ·)
        else
          let s := skipWhitespaces s.tail
          if s.headD 0 = close then some (elements, s.tail)
          else parseElements close element fuel elements s

def parseContainer {β : Type} (close : UInt8) (element : List β → List UInt8 → Option (List β × List UInt8))
    (s : List UInt8) : Option (List β × List UInt8) :=
  let s := skipWhitespaces s.tail
  if s.headD 0 = close then some ([], s.tail)
  else parseElements close element (s.length + 1) [] s

def parseObjectValue (s : List UInt8) : Option (JsonValue × List UInt8) :=
  (parseContainer closeBrace (parseMember parse) s).map fun (members, rest) => (.object members, rest)

def parseArrayValue (s : List UInt8) : Option (JsonValue × List UInt8) :=
  (parseContainer closeBracket (parseItem parse) s).map fun (items, rest) => (.array items, rest)

end Containers

/-- `parse_value`, with the number of nestings that are still allowed. -/
def parseValue : ℕ → List UInt8 → Option (JsonValue × List UInt8)
  | 0, _ => none
  | depth + 1, s =>
    let s := skipWhitespaces s
    let c := s.headD 0
    if c = openBrace then parseObjectValue (parseValue depth) s
    else if c = openBracket then parseArrayValue (parseValue depth) s
    else if c = quoteByte then parseStringValue s
    else if c = 'f'.toUInt8 ∨ c = 't'.toUInt8 then parseBooleanValue s
    else if c = '-'.toUInt8 ∨ isDigit c then parseNumberValue s
    else if c = 'n'.toUInt8 then parseNullValue s
    else none

def maxNesting : ℕ := 2048

/-- `json_parse_string`; a byte order mark is skipped. -/
def jsonParseString (s : List UInt8) : Option JsonValue :=
  let s := if [0xef, 0xbb, 0xbf] <+: s then s.drop 3 else s
  (parseValue (maxNesting + 1) s).map Prod.fst

/-! ### The loop over the elements -/

theorem skipWhitespaces_suffix (s : List UInt8) : skipWhitespaces s <:+ s := List.dropWhile_suffix _

section Loop
variable {β : Type} {close : UInt8} {element : List β → List UInt8 → Option (List β × List UInt8)}

theorem closeWith_suffix {s rest : List UInt8} (h : closeWith close s = some rest) : rest <:+ s := by
  unfold closeWith at h
  split_ifs at h
  cases h
  exact (List.tail_suffix _).trans (skipWhitespaces_suffix s)

/-- What every turn keeps, the loop keeps. The text of a property may lose bytes in front. -/
theorem parseElements_invariant {P : List β → List UInt8 → Prop}
    (hskip : ∀ {es : List β} {s s' : List UInt8}, P es s → s' <:+ s → P es s')
    (hstep : ∀ {es es' : List β} {s s' : List UInt8}, P es s → element es s = some (es', s') → P es' s') {fuel : ℕ}
    {es es' : List β} {s rest : List UInt8} (hes : P es s)
    (h : parseElements close element fuel es s = some (es', rest)) :
    P es' rest := by
  induction fuel generalizing es s with
  | zero => cases h
  | succ fuel ih =>
    rw [parseElements] at h
    split_ifs at h with hs
    cases helement : element es s with
    | none =>
      rw [helement] at h
      cases h
    | some r =>
      obtain ⟨es₁, s₁⟩ := r
      have hes₁ := hstep hes helement
      have hnext : skipWhitespaces s₁.tail <:+ s₁ := (skipWhitespaces_suffix _).trans (List.tail_suffix _)
      rw [helement] at h
      dsimp only at h
      split_ifs at h
      · obtain ⟨_, hclose, heq⟩ := Option.map_eq_some_iff.1 h
        cases heq
        exact hskip hes₁ (closeWith_suffix hclose)
      · cases h
        exact hskip hes₁ ((List.tail_suffix _).trans hnext)
      · exact ih (hskip hes₁ hnext) h

theorem parseContainer_invariant {P : List β → List UInt8 → Prop}
    (hskip : ∀ {es : List β} {s s' : List UInt8}, P es s → s' <:+ s → P es s')
    (hstep : ∀ {es es' : List β} {s s' : List UInt8}, P es s → element es s = some (es', s') → P es' s') {es : List β}
    {s rest : List UInt8} (hnil : P [] s) (h : parseContainer close element s = some (es, rest)) : P es rest := by
  have hnext : skipWhitespaces s.tail <:+ s := (skipWhitespaces_suffix _).trans (List.tail_suffix _)
  unfold parseContainer at h
  dsimp only at h
  split_ifs at h
  · cases h
    exact hskip hnil ((List.tail_suffix _).trans hnext)
  · exact parseElements_invariant (P := P) hskip hstep (hskip hnil hnext) h

/-- A turn for every byte is enough: more turns change nothing. -/
theorem parseElements_fuel
    (helement : ∀ {es es' : List β} {s s' : List UInt8}, element es s = some (es', s') → s' <:+ s)
    {n m : ℕ} {es : List β} {s : List UInt8} (hn : s.length < n) (hm : s.length < m) :
    parseElements close element n es s = parseElements close element m es s := by
  induction n generalizing m es s with
  | zero => exact absurd hn (Nat.not_lt_zero _)
  | succ n ih =>
    obtain ⟨m, rfl⟩ : ∃ m', m = m' + 1 := ⟨m - 1, by omega⟩
    rw [parseElements, parseElements]
    cases hread : element es s with
    | none => rfl
    | some r =>
      obtain ⟨es₁, s₁⟩ := r
      dsimp only
      by_cases hs : s = []
      · rw [if_pos hs, if_pos hs]
      rw [if_neg hs, if_neg hs]
      by_cases hcomma : s₁.headD 0 ≠ ','.toUInt8
      · rw [if_pos hcomma, if_pos hcomma]
      rw [if_neg hcomma, if_neg hcomma]
      -- at least the comma has been read
      have hlen : (skipWhitespaces s₁.tail).length < s.length := by
        have hread := (helement hread).length_le
        have hskip := (skipWhitespaces_suffix s₁.tail).length_le
        cases s₁ with
        | nil => exact absurd (by decide) hcomma
        | cons c rest =>
          rw [List.length_cons] at hread
          rw [List.tail_cons] at hskip ⊢
          omega
      rw [ih (m := m) (by omega) (by omega)]

end Loop

/-! ### What is read -/

section Values
variable {s rest : List UInt8}

theorem quotedText_suffix {raw : List UInt8} (h : quotedText s = some (raw, rest)) : rest <:+ s := by
  fun_induction quotedText s generalizing raw with
  | case1 => cases h
  | case2 s =>
    cases h
    exact List.suffix_cons _ _
  | case3 => cases h
  | case4 d s _ ih =>
    obtain ⟨⟨_, _⟩, hs, heq⟩ := Option.map_eq_some_iff.1 h
    cases heq
    exact (ih hs).trans ((List.suffix_cons _ _).trans (List.suffix_cons _ _))
  | case5 c s _ _ ih =>
    obtain ⟨⟨_, _⟩, hs, heq⟩ := Option.map_eq_some_iff.1 h
    cases heq
    exact (ih hs).trans (List.suffix_cons _ _)

theorem getQuotedString_suffix {chars : List UInt8} (h : getQuotedString s = some (chars, rest)) : rest <:+ s := by
  unfold getQuotedString at h
  simp only [Option.bind_eq_bind, Option.bind_eq_some_iff] at h
  obtain ⟨⟨raw, rest'⟩, hquotes, chars', -, heq⟩ := h
  cases heq
  unfold skipQuotes at hquotes
  split_ifs at hquotes
  exact (quotedText_suffix hquotes).trans (List.tail_suffix s)

theorem readFraction_suffix (s : List UInt8) : (readFraction s).2 <:+ s := by
  unfold readFraction
  split_ifs
  · exact (List.dropWhile_suffix _).trans (List.tail_suffix s)
  · exact List.suffix_refl s

theorem exponentDigits_suffix (s : List UInt8) : exponentDigits s <:+ s := by
  unfold exponentDigits
  split_ifs
  · exact List.tail_suffix s
  · exact List.suffix_refl s

theorem readExponent_suffix (s : List UInt8) : (readExponent s).2 <:+ s := by
  unfold readExponent
  split
  · exact (List.dropWhile_suffix _).trans ((exponentDigits_suffix _).trans (List.tail_suffix s))
  · exact List.suffix_refl s

theorem readDecimal_suffix {digits : ℕ} {exponent : ℤ} (h : readDecimal s = some (digits, exponent, rest)) :
    rest <:+ s := by
  unfold readDecimal at h
  dsimp only at h
  split_ifs at h
  cases h
  exact (readExponent_suffix _).trans ((readFraction_suffix _).trans (List.dropWhile_suffix _))

theorem skipMinus_suffix (s : List UInt8) : skipMinus s <:+ s := by
  unfold skipMinus
  split_ifs
  · exact List.tail_suffix s
  · exact List.suffix_refl s

theorem parseNumberValue_eq_some {v : JsonValue} (h : parseNumberValue s = some (v, rest)) :
    (∃ x, v = .number x) ∧ rest <:+ s := by
  unfold parseNumberValue at h
  by_cases hother : isInfOrNan (skipMinus s) ∨ isHexFloat (skipMinus s)
  · rw [if_pos hother] at h
    cases h
  rw [if_neg hother] at h
  cases hdecimal : readDecimal (skipMinus s) with
  | none =>
    rw [hdecimal] at h
    cases h
    exact ⟨⟨0, rfl⟩, List.suffix_refl s⟩
  | some r =>
    obtain ⟨digits, exponent, rest'⟩ := r
    rw [hdecimal] at h
    dsimp only at h
    by_cases hdec : !isDecimal (s.take (s.length - rest'.length))
    · rw [if_pos hdec] at h
      cases h
    · rw [if_neg hdec] at h
      obtain ⟨_, -, heq⟩ := Option.map_eq_some_iff.1 h
      cases heq
      exact ⟨⟨_, rfl⟩, (readDecimal_suffix hdecimal).trans (skipMinus_suffix s)⟩

end Values

section Members
variable {parse : List UInt8 → Option (JsonValue × List UInt8)} {s s' : List UInt8}

theorem parseMember_eq_some {members members' : Members} (h : parseMember parse members s = some (members', s')) :
    ∃ key value rest rest', getQuotedString s = some (key, rest) ∧ (0 : UInt8) ∉ key ∧ key ∉ members.map Prod.fst ∧
      parse (skipWhitespaces rest).tail = some (value, rest') ∧ members' = members ++ [(key, value)] ∧
      s' = skipWhitespaces rest' := by
  unfold parseMember at h
  simp only [Option.bind_eq_bind, Option.bind_eq_some_iff] at h
  obtain ⟨⟨key, rest⟩, hkey, h⟩ := h
  dsimp only at h
  by_cases hnul : (0 : UInt8) ∈ key
  · rw [if_pos hnul] at h
    cases h
  rw [if_neg hnul] at h
  by_cases hcolon : (skipWhitespaces rest).headD 0 ≠ ':'.toUInt8
  · rw [if_pos hcolon] at h
    cases h
  rw [if_neg hcolon] at h
  simp only [Option.bind_eq_some_iff] at h
  obtain ⟨⟨value, rest'⟩, hvalue, members₁, hadd, heq⟩ := h
  cases heq
  unfold jsonObjectAdd at hadd
  split_ifs at hadd with hold
  cases hadd
  exact ⟨key, value, rest, rest', hkey, hnul, hold, hvalue, rfl, rfl⟩

theorem parseItem_eq_some {items items' : List JsonValue} (h : parseItem parse items s = some (items', s')) :
    ∃ value rest, parse s = some (value, rest) ∧ items' = items ++ [value] ∧ s' = skipWhitespaces rest := by
  unfold parseItem at h
  simp only [Option.bind_eq_bind, Option.bind_eq_some_iff] at h
  obtain ⟨⟨value, rest⟩, hvalue, heq⟩ := h
  cases heq
  exact ⟨value, rest, hvalue, rfl, rfl⟩

theorem parseMember_suffix (hparse : ∀ {s rest : List UInt8} {v : JsonValue}, parse s = some (v, rest) → rest <:+ s)
    {members members' : Members} (h : parseMember parse members s = some (members', s')) : s' <:+ s := by
  obtain ⟨key, value, rest, rest', hkey, -, -, hvalue, -, rfl⟩ := parseMember_eq_some h
  have hcolon : (skipWhitespaces rest).tail <:+ rest := (List.tail_suffix _).trans (skipWhitespaces_suffix rest)
  exact (skipWhitespaces_suffix rest').trans ((hparse hvalue).trans (hcolon.trans (getQuotedString_suffix hkey)))

theorem parseItem_suffix (hparse : ∀ {s rest : List UInt8} {v : JsonValue}, parse s = some (v, rest) → rest <:+ s)
    {items items' : List JsonValue} (h : parseItem parse items s = some (items', s')) : s' <:+ s := by
  obtain ⟨value, rest, hvalue, -, rfl⟩ := parseItem_eq_some h
  exact (skipWhitespaces_suffix rest).trans (hparse hvalue)

end Members

theorem parseContainer_suffix {β : Type} {close : UInt8} {element : List β → List UInt8 → Option (List β × List UInt8)}
    (helement : ∀ {es es' : List β} {s s' : List UInt8}, element es s = some (es', s') → s' <:+ s) {es : List β}
    {s rest : List UInt8} (h : parseContainer close element s = some (es, rest)) : rest <:+ s :=
  parseContainer_invariant (P := fun _ s' => s' <:+ s) (fun hs hskip => hskip.trans hs)
    (fun hs hread => (helement hread).trans hs) (List.suffix_refl s) h

/-- What `parse_value` reads by the first byte of the value. -/
theorem parseValue_cases {depth : ℕ} {s rest : List UInt8} {v : JsonValue}
    (h : parseValue (depth + 1) s = some (v, rest)) :
    (∃ members, v = .object members ∧
        parseContainer closeBrace (parseMember (parseValue depth)) (skipWhitespaces s) = some (members, rest)) ∨
      (∃ items, v = .array items ∧
        parseContainer closeBracket (parseItem (parseValue depth)) (skipWhitespaces s) = some (items, rest)) ∨
      parseStringValue (skipWhitespaces s) = some (v, rest) ∨ parseBooleanValue (skipWhitespaces s) = some (v, rest) ∨
      parseNumberValue (skipWhitespaces s) = some (v, rest) ∨ parseNullValue (skipWhitespaces s) = some (v, rest) := by
  rw [parseValue] at h
  split_ifs at h
  · obtain ⟨⟨members, _⟩, hmembers, heq⟩ := Option.map_eq_some_iff.1 h
    cases heq
    exact .inl ⟨members, rfl, hmembers⟩
  · obtain ⟨⟨items, _⟩, hitems, heq⟩ := Option.map_eq_some_iff.1 h
    cases heq
    exact .inr (.inl ⟨items, rfl, hitems⟩)
  · exact .inr (.inr (.inl h))
  · exact .inr (.inr (.inr (.inl h)))
  · exact .inr (.inr (.inr (.inr (.inl h))))
  · exact .inr (.inr (.inr (.inr (.inr h))))

theorem parseValue_suffix {depth : ℕ} {s rest : List UInt8} {v : JsonValue} (h : parseValue depth s = some (v, rest)) :
    rest <:+ s := by
  induction depth generalizing s rest v with
  | zero => cases h
  | succ depth ih =>
    refine List.IsSuffix.trans ?_ (skipWhitespaces_suffix s)
    rcases parseValue_cases h with ⟨members, -, h⟩ | ⟨items, -, h⟩ | h | h | h | h
    · exact parseContainer_suffix (parseMember_suffix ih) h
    · exact parseContainer_suffix (parseItem_suffix ih) h
    · obtain ⟨⟨_, _⟩, hstring, heq⟩ := Option.map_eq_some_iff.1 h
      cases heq
      exact getQuotedString_suffix hstring
    · unfold parseBooleanValue at h
      split_ifs at h <;> cases h <;> exact List.drop_suffix ..
    · exact (parseNumberValue_eq_some h).2
    · unfold parseNullValue at h
      split_ifs at h
      cases h
      exact List.drop_suffix ..

/-- The loops over members and items are never short of turns. -/
theorem parseContainer_turns (depth : ℕ) (s : List UInt8) {n : ℕ} (hn : s.length < n) :
    parseElements closeBrace (parseMember (parseValue depth)) n [] s =
        parseElements closeBrace (parseMember (parseValue depth)) (s.length + 1) [] s ∧
      parseElements closeBracket (parseItem (parseValue depth)) n [] s =
        parseElements closeBracket (parseItem (parseValue depth)) (s.length + 1) [] s :=
  ⟨parseElements_fuel (parseMember_suffix parseValue_suffix) hn (Nat.lt_succ_self _),
    parseElements_fuel (parseItem_suffix parseValue_suffix) hn (Nat.lt_succ_self _)⟩

/-! ### What is accepted -/

/-- The names of every object are distinct and have no NULs. -/
inductive JsonValue.WF : JsonValue → Prop
  | null : WF .null
  | boolean (b : Bool) : WF (.boolean b)
  | number (x : ℚ) : WF (.number x)
  | string (chars : List UInt8) : WF (.string chars)
  | array {items : List JsonValue} (h : ∀ v ∈ items, WF v) : WF (.array items)
  | object {members : Members} (hnames : (members.map Prod.fst).Nodup) (hnul : ∀ m ∈ members, (0 : UInt8) ∉ m.1)
      (h : ∀ m ∈ members, WF m.2) : WF (.object members)

namespace JsonValue.WF

theorem addMember {members : Members} {key : List UInt8} {value : JsonValue} (h : (JsonValue.object members).WF)
    (hkey : 0 ∉ key) (hnew : key ∉ members.map Prod.fst) (hvalue : value.WF) :
    (JsonValue.object (members ++ [(key, value)])).WF := by
  cases h with
  | object hnames hnul hwf =>
    refine .object ?_ ?_ ?_
    · rw [List.map_append, List.nodup_append]
      refine ⟨hnames, List.nodup_singleton _, ?_⟩
      intro name hname last hlast heq
      rw [heq, List.mem_singleton.1 hlast] at hname
      exact hnew hname
    · rw [List.forall_mem_append]
      exact ⟨hnul, List.forall_mem_singleton.2 hkey⟩
    · rw [List.forall_mem_append]
      exact ⟨hwf, List.forall_mem_singleton.2 hvalue⟩

theorem addItem {items : List JsonValue} {value : JsonValue} (h : (JsonValue.array items).WF) (hvalue : value.WF) :
    (JsonValue.array (items ++ [value])).WF := by
  cases h with
  | array hwf =>
    refine .array ?_
    rw [List.forall_mem_append]
    exact ⟨hwf, List.forall_mem_singleton.2 hvalue⟩

end JsonValue.WF

theorem parseValue_wf {depth : ℕ} {s rest : List UInt8} {v : JsonValue} (h : parseValue depth s = some (v, rest)) :
    v.WF := by
  induction depth generalizing s rest v with
  | zero => cases h
  | succ depth ih =>
    rcases parseValue_cases h with ⟨members, rfl, hread⟩ | ⟨items, rfl, hread⟩ | hread | hread | hread | hread
    · refine parseContainer_invariant (P := fun members _ => (JsonValue.object members).WF) (fun hes _ => hes) ?_
        (.object .nil (by simp) (by simp)) hread
      intro members members' _ _ hwf hmember
      obtain ⟨key, value, _, _, -, hkey, hnew, hvalue, rfl, -⟩ := parseMember_eq_some hmember
      exact hwf.addMember hkey hnew (ih hvalue)
    · refine parseContainer_invariant (P := fun items _ => (JsonValue.array items).WF) (fun hes _ => hes) ?_
        (.array (by simp)) hread
      intro items items' _ _ hwf hitem
      obtain ⟨value, _, hvalue, rfl, -⟩ := parseItem_eq_some hitem
      exact hwf.addItem (ih hvalue)
    · obtain ⟨⟨chars, _⟩, -, heq⟩ := Option.map_eq_some_iff.1 hread
      cases heq
      exact .string chars
    · unfold parseBooleanValue at hread
      split_ifs at hread <;> cases hread <;> exact .boolean _
    · obtain ⟨⟨x, rfl⟩, -⟩ := parseNumberValue_eq_some hread
      exact .number x
    · unfold parseNullValue at hread
      split_ifs at hread
      cases hread
      exact .null

theorem jsonParseString_wf {s : List UInt8} {v : JsonValue} (h : jsonParseString s = some v) : v.WF := by
  obtain ⟨⟨_, _⟩, hvalue, rfl⟩ := Option.map_eq_some_iff.1 h
  exact parseValue_wf hvalue

end VpnHide
