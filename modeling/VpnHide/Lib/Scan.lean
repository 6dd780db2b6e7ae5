import VpnHide.Lib.Printf

/-!
# Reading formatted text

`sscanf` of the kernel, for formats of literal characters, unsigned numbers and fields that end at a character. What
`printf` writes is read back (`sscanf_unsigned_decimal`, `sscanf_charsExcept`).
-/

namespace VpnHide

inductive ScanItem where
  | literal (c : UInt8)
  /-- `%u` -/
  | unsigned
  /-- `%127[^;]`, with some width and character -/
  | charsExcept (width : ℕ) (c : UInt8)

inductive Scanned where
  | number (n : ℕ)
  | text (bytes : List UInt8)
  deriving DecidableEq

/-- `isspace` of the kernel, which has the no-break space of Latin-1, too. -/
def isKernelSpace (c : UInt8) : Bool := isSpace c || c == 0xa0

/-- What is assigned, up to the first item that does not match. -/
def sscanf : List ScanItem → List UInt8 → List Scanned
  | [], _ => []
  | .literal c :: format, s => match s with
    | [] => []
    | d :: s => if d = c then sscanf format s else []
  | .unsigned :: format, s =>
    let s := s.dropWhile isKernelSpace
    let digits := leadingDigits 10 s
    if digits = [] then [] else .number (digitsValue 10 digits) :: sscanf format (s.drop digits.length)
  | .charsExcept width c :: format, s =>
    let text := (s.takeWhile (· ≠ c)).take width
    if text = [] then [] else .text text :: sscanf format (s.drop text.length)

/-! ### Numbers -/

theorem digitValue_digitChar {d : ℕ} (h : d < 10) : digitValue 10 (Nat.digitChar d).toUInt8 = some d := by
  have hall : ∀ d : Fin 10, digitValue 10 (Nat.digitChar d).toUInt8 = some d.val := by decide
  exact hall ⟨d, h⟩

theorem decimal_eq (n : ℕ) :
    decimal n = (if n < 10 then [] else decimal (n / 10)) ++ [(Nat.digitChar (n % 10)).toUInt8] := by
  unfold decimal
  rw [Nat.toDigits_eq_if (by decide)]
  split_ifs with hlt
  · rw [Nat.mod_eq_of_lt hlt]
    rfl
  · rw [List.map_append]
    rfl

theorem leadingDigits_decimal (n : ℕ) (rest : List UInt8) :
    ∃ digits, leadingDigits 10 (decimal n ++ rest) = digits ++ leadingDigits 10 rest ∧
      digits.length = (decimal n).length ∧ digitsValue 10 digits = n := by
  induction n using Nat.strongRecOn generalizing rest with
  | ind n ih =>
    have hlast := digitValue_digitChar (Nat.mod_lt n (by decide : 10 > 0))
    have hdigit : leadingDigits 10 ((Nat.digitChar (n % 10)).toUInt8 :: rest) = n % 10 :: leadingDigits 10 rest := by
      rw [leadingDigits, hlast]
    rw [decimal_eq n]
    by_cases hlt : n < 10
    · refine ⟨[n], ?_, ?_, ?_⟩
      · rw [if_pos hlt, List.nil_append, List.singleton_append, hdigit, Nat.mod_eq_of_lt hlt]
        rfl
      · rw [if_pos hlt]
        rfl
      · exact Nat.zero_add n
    · obtain ⟨digits, hread, hlen, hvalue⟩ := ih (n / 10) (by omega) ((Nat.digitChar (n % 10)).toUInt8 :: rest)
      refine ⟨digits ++ [n % 10], ?_, ?_, ?_⟩
      · rw [if_neg hlt, List.append_assoc, List.singleton_append, hread, hdigit, List.append_assoc]
        rfl
      · rw [if_neg hlt, List.length_append, List.length_append, hlen]
        rfl
      · rw [digitsValue, List.foldl_append]
        show 10 * digitsValue 10 digits + n % 10 = n
        omega

theorem decimal_head (n : ℕ) : ∃ d < 10, ∃ rest, decimal n = (Nat.digitChar d).toUInt8 :: rest := by
  induction n using Nat.strongRecOn with
  | ind n ih =>
    rw [decimal_eq n]
    by_cases hlt : n < 10
    · exact ⟨n % 10, Nat.mod_lt _ (by decide), [], by rw [if_pos hlt]; rfl⟩
    · obtain ⟨d, hd, rest, hrest⟩ := ih (n / 10) (by omega)
      exact ⟨d, hd, rest ++ [(Nat.digitChar (n % 10)).toUInt8], by rw [if_neg hlt, hrest]; rfl⟩

theorem dropWhile_isKernelSpace_decimal (n : ℕ) (rest : List UInt8) :
    (decimal n ++ rest).dropWhile isKernelSpace = decimal n ++ rest := by
  have hall : ∀ d : Fin 10, ¬ isKernelSpace (Nat.digitChar d).toUInt8 := by decide
  obtain ⟨d, hd, tail, htail⟩ := decimal_head n
  rw [htail]
  exact List.dropWhile_cons_of_neg (hall ⟨d, hd⟩)

theorem sscanf_unsigned_decimal (format : List ScanItem) (n : ℕ) {rest : List UInt8} (h : leadingDigits 10 rest = []) :
    sscanf (.unsigned :: format) (decimal n ++ rest) = .number n :: sscanf format rest := by
  obtain ⟨digits, hread, hlen, hvalue⟩ := leadingDigits_decimal n rest
  rw [h, List.append_nil] at hread
  have hne : digits ≠ [] := by
    intro hnil
    obtain ⟨d, -, tail, htail⟩ := decimal_head n
    rw [hnil, htail] at hlen
    cases hlen
  rw [sscanf, dropWhile_isKernelSpace_decimal, hread, if_neg hne, hvalue, hlen, List.drop_left]

theorem sscanf_charsExcept (format : List ScanItem) {width : ℕ} {c : UInt8} {text : List UInt8} (hne : text ≠ [])
    (hc : c ∉ text) (hwidth : text.length ≤ width) (rest : List UInt8) :
    sscanf (.charsExcept width c :: format) (text ++ c :: rest) = .text text :: sscanf format (c :: rest) := by
  have hall : ∀ d ∈ text, decide (d ≠ c) = true := fun d hd => decide_eq_true fun heq => hc (heq ▸ hd)
  have htake : (text ++ c :: rest).takeWhile (fun d => decide (d ≠ c)) = text := by
    rw [List.takeWhile_append_of_pos hall, List.takeWhile_cons_of_neg (by simp), List.append_nil]
  rw [sscanf, htake, List.take_of_length_le hwidth, if_neg hne, List.drop_left]

end VpnHide
