import StructuralSchema.Json.Mistake

namespace StructuralSchema.Json.Quoted

def hexDigits (width value : Nat) : List Char :=
  let digits := Nat.toDigits 16 value
  List.replicate (width - digits.length) '0' ++ digits

/-- Quotes, backslashes and control characters are escaped, and nothing else. -/
def escape (c : Char) : List Char :=
  match c with
  | '"' => ['\\', '"']
  | '\\' => ['\\', '\\']
  | '\x08' => ['\\', 'b']
  | '\t' => ['\\', 't']
  | '\n' => ['\\', 'n']
  | '\x0c' => ['\\', 'f']
  | '\r' => ['\\', 'r']
  | c => if c.toNat < 0x20 then '\\' :: 'u' :: hexDigits 4 c.toNat else [c]

def encode (text : List Char) : List Char :=
  '"' :: text.flatMap escape ++ ['"']

def named? : Char → Option Char
  | '"' => some '"'
  | '\\' => some '\\'
  | '/' => some '/'
  | 'b' => some '\x08'
  | 'f' => some '\x0c'
  | 'n' => some '\n'
  | 'r' => some '\r'
  | 't' => some '\t'
  | _ => none

def hexValue? (c : Char) : Option Nat :=
  if '0' ≤ c ∧ c ≤ '9' then some (c.toNat - '0'.toNat)
  else if 'a' ≤ c ∧ c ≤ 'f' then some (c.toNat - 'a'.toNat + 10)
  else if 'A' ≤ c ∧ c ≤ 'F' then some (c.toNat - 'A'.toNat + 10)
  else none

def isHigh (unit : Nat) : Bool := 0xd800 ≤ unit && unit < 0xdc00

def isLow (unit : Nat) : Bool := 0xdc00 ≤ unit && unit < 0xe000

inductive Mode where
  | plain
  | letter
  /-- So many hexadecimal digits, after those read and perhaps after a high surrogate. -/
  | hex (high : Option Nat) (wanted : Nat) (read : Nat)
  /-- The backslash of the low surrogate that has to follow. -/
  | lowEscape (high : Nat)
  /-- The `u` of that low surrogate. -/
  | lowLetter (high : Nat)

/-- What four hexadecimal digits add to the text, and what has to follow them. A surrogate counts
only as the second half of a pair. -/
def unit (high : Option Nat) (unit : Nat) (done : List Char) : Option (Mode × List Char) :=
  match high with
  | none =>
    if isLow unit then none
    else if isHigh unit then some (.lowEscape unit, done)
    else some (.plain, Char.ofNat unit :: done)
  | some high =>
    if isLow unit then
      some (.plain, Char.ofNat (0x10000 + (high - 0xd800) * 0x400 + (unit - 0xdc00)) :: done)
    else none

/-- Reads the rest of a string, after the characters `done`, the last of them first. -/
def decodeFrom : Mode → List Char → List Char → Except Stop (List Char × List Char)
  | _, _, [] => .error ⟨.endInString, [], 0⟩
  | .plain, done, c :: rest =>
    if c = '"' then .ok (done.reverse, rest)
    else if c = '\\' then decodeFrom .letter done rest
    else if c.toNat < 0x20 then .error ⟨.controlCharacter, c :: rest, 1⟩
    else decodeFrom .plain (c :: done) rest
  | .letter, done, c :: rest =>
    if c = 'u' then decodeFrom (.hex none 4 0) done rest
    else
      match named? c with
      | some d => decodeFrom .plain (d :: done) rest
      | none => .error ⟨.invalidEscape, c :: rest, 1⟩
  | .hex high wanted read, done, c :: rest =>
    match hexValue? c with
    | none =>
      if bytes (c :: rest) < wanted then .error ⟨.endInString, [], 0⟩
      else .error ⟨.invalidEscape, c :: rest, wanted⟩
    | some digit =>
      if 1 < wanted then decodeFrom (.hex high (wanted - 1) (read * 16 + digit)) done rest
      else
        match unit high (read * 16 + digit) done with
        | some (mode, done) => decodeFrom mode done rest
        | none => .error ⟨.loneSurrogate, rest, 0⟩
  | .lowEscape high, done, c :: rest =>
    if c = '\\' then decodeFrom (.lowLetter high) done rest
    else .error ⟨.unexpectedEndOfEscape, c :: rest, 1⟩
  | .lowLetter high, done, c :: rest =>
    if c = 'u' then decodeFrom (.hex (some high) 4 0) done rest
    else .error ⟨.unexpectedEndOfEscape, c :: rest, 1⟩

def decode (text : List Char) : Except Stop (List Char × List Char) :=
  decodeFrom .plain [] text

theorem hexValue?_digitChar : ∀ n < 16, hexValue? (Nat.digitChar n) = some n := by decide

theorem hexDigits_of_control : ∀ n < 0x20,
    hexDigits 4 n = ['0', '0', Nat.digitChar (n / 16), Nat.digitChar (n % 16)] := by decide

theorem decodeFrom_hexDigits {n : Nat} (h : n < 0x20) (done rest : List Char) :
    decodeFrom (.hex none 4 0) done (hexDigits 4 n ++ rest) =
      decodeFrom .plain (Char.ofNat n :: done) rest := by
  have hz : hexValue? '0' = some 0 := by decide
  have hh := hexValue?_digitChar (n / 16) (by omega)
  have hl := hexValue?_digitChar (n % 16) (by omega)
  have hn : n / 16 * 16 + n % 16 = n := by omega
  have hw : isLow n = false := by simp [isLow]; omega
  have hi : isHigh n = false := by simp [isHigh]; omega
  rw [hexDigits_of_control n h]
  simp [decodeFrom, hz, hh, hl, hn, unit, hw, hi]

theorem decodeFrom_escape (c : Char) (done rest : List Char) :
    decodeFrom .plain done (escape c ++ rest) = decodeFrom .plain (c :: done) rest := by
  unfold escape
  split
  case h_8 hq hb _ _ _ _ _ =>
    by_cases hc : c.toNat < 0x20
    · have hd := decodeFrom_hexDigits hc done rest
      rw [Char.ofNat_toNat] at hd
      simpa [hc, decodeFrom] using hd
    · have hq : c ≠ '"' := hq
      have hb : c ≠ '\\' := hb
      simp [decodeFrom, hc, hq, hb]
  all_goals simp [decodeFrom, named?]

theorem decodeFrom_flatMap_escape (text done rest : List Char) :
    decodeFrom .plain done (text.flatMap escape ++ '"' :: rest) =
      .ok (done.reverse ++ text, rest) := by
  induction text generalizing done with
  | nil => simp [decodeFrom]
  | cons c text ih =>
    rw [List.flatMap_cons, List.append_assoc, decodeFrom_escape, ih]
    simp

theorem decode_encode (text rest : List Char) :
    decode ((encode text).drop 1 ++ rest) = .ok (text, rest) := by
  simpa [encode, decode] using decodeFrom_flatMap_escape text [] rest

theorem length_rest_of_decodeFrom {mode : Mode} {done text read rest : List Char}
    (h : decodeFrom mode done text = .ok (read, rest)) : rest.length < text.length := by
  fun_induction decodeFrom mode done text with
  | case2 => simp_all
  | _ => simp_all <;> omega

end StructuralSchema.Json.Quoted
