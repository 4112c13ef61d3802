import StructuralSchema.Json
import StructuralSchema.Json.Mistake

namespace StructuralSchema.Json.Numeral

def significandLimit : Nat := 2 ^ 64

def powerLimit : Nat := 2 ^ 31

def digitValue (c : Char) : Nat := c.toNat - '0'.toNat

structure Gathered where
  value : Nat
  used : Nat
  rest : List Char

/-- Appends digits to `value` as long as the result stays below `limit`. -/
def gather (limit value used : Nat) : List Char → Gathered
  | [] => ⟨value, used, []⟩
  | c :: rest =>
    if c.isDigit ∧ value * 10 + digitValue c < limit then
      gather limit (value * 10 + digitValue c) (used + 1) rest
    else ⟨value, used, c :: rest⟩

def startsWith (p : Char → Bool) : List Char → Bool
  | [] => false
  | c :: _ => p c

def isPowerMark (c : Char) : Bool := c = 'e' || c = 'E'

def skipDigits (text : List Char) : List Char := text.dropWhile Char.isDigit

/-- A number without its sign, as `significand * 10 ^ exponent`, and what follows. -/
structure Scan where
  significand : Nat
  exponent : Int
  rest : List Char

/-- The digits before the point. Those beyond `2 ^ 64` only raise the exponent. -/
def whole : List Char → Except Stop Scan
  | [] => .error ⟨.endInValue, [], 0⟩
  | c :: rest =>
    if c = '0' then
      if startsWith Char.isDigit rest then .error ⟨.invalidNumber, rest, 1⟩
      else .ok ⟨0, 0, rest⟩
    else if c.isDigit then
      let digits := gather significandLimit (digitValue c) 0 rest
      let more := digits.rest.takeWhile Char.isDigit
      .ok ⟨digits.value, more.length, skipDigits digits.rest⟩
    else .error ⟨.invalidNumber, c :: rest, 1⟩

def fraction (scan : Scan) : Except Stop Scan :=
  match scan.rest with
  | '.' :: rest =>
    if startsWith Char.isDigit rest then
      let digits := gather significandLimit scan.significand 0 rest
      .ok ⟨digits.value, scan.exponent - digits.used, skipDigits digits.rest⟩
    else if rest = [] then .error ⟨.endInValue, [], 0⟩
    else .error ⟨.invalidNumber, rest, 1⟩
  | _ => .ok scan

def lower : Nat → Double → Option Double
  | 0, x => some x
  | steps + 1, x =>
    if x.magnitude = 0 then some x
    else ((Double.powerOfTen? 308).bind x.div?).bind (lower steps)

/-- A double times a power of ten. Powers up to 308 are taken as the nearest double; a division by
a greater one goes in several steps. `none` if the result is too large. -/
def scale (x : Double) (exponent : Int) : Option Double :=
  if exponent < 0 then
    let places := exponent.natAbs
    let steps := (places - 1) / 308
    (lower steps x).bind fun y => (Double.powerOfTen? (places - 308 * steps)).bind y.div?
  else if exponent ≤ 308 then (Double.powerOfTen? exponent.toNat).bind x.mul?
  else if x.magnitude = 0 then some x
  else none

def finish (negative : Bool) (scan : Scan) : Except Stop (Number × List Char) :=
  match (Double.ofRatio? negative ⟨scan.significand, 1⟩).bind (scale · scan.exponent) with
  | some x => .ok (.float x, scan.rest)
  | none => .error ⟨.numberOutOfRange, scan.rest, 0⟩

/-- The digits of an exponent of the given sign. When they reach `2 ^ 31`, the number is too large
or zero. -/
def powerDigits (negative down : Bool) (scan : Scan) (text : List Char) :
    Except Stop (Number × List Char) :=
  match text with
  | [] => .error ⟨.endInValue, [], 0⟩
  | c :: rest =>
    if c.isDigit then
      let digits := gather powerLimit 0 0 text
      if startsWith Char.isDigit digits.rest then
        if scan.significand ≠ 0 ∧ ¬down then .error ⟨.numberOutOfRange, digits.rest, 1⟩
        else .ok (.float (Double.zero negative), skipDigits digits.rest)
      else
        let power : Int := if down then -digits.value else digits.value
        finish negative ⟨scan.significand, scan.exponent + power, digits.rest⟩
    else .error ⟨.invalidNumber, c :: rest, 1⟩

def power (negative : Bool) (scan : Scan) (text : List Char) : Except Stop (Number × List Char) :=
  match text with
  | '+' :: rest => powerDigits negative false scan rest
  | '-' :: rest => powerDigits negative true scan rest
  | text => powerDigits negative false scan text

def float (negative : Bool) (scan : Scan) : Except Stop (Number × List Char) := do
  let scan ← fraction scan
  match scan.rest with
  | [] => finish negative scan
  | c :: rest => if isPowerMark c then power negative scan rest else finish negative scan

/-- The integer of that sign and size, if 64 bits hold it. There is no integer `-0`. -/
def integer? (negative : Bool) (size : Nat) : Option Number :=
  let value : Int := if negative then -size else size
  if h : (negative → size ≠ 0) ∧ (-2 ^ 63 ≤ value ∧ value < 2 ^ 64) then some (.int value h.2)
  else none

def unsigned (negative : Bool) (text : List Char) : Except Stop (Number × List Char) := do
  let scan ← whole text
  if scan.exponent = 0 ∧ ¬startsWith (fun c => c = '.' || isPowerMark c) scan.rest then
    match integer? negative scan.significand with
    | some n => .ok (n, scan.rest)
    | none => finish negative scan
  else float negative scan

/-- Reads the number that a text starts with. Digits are gathered into a significand below `2 ^ 64`.
Unless an integer is written, that is rounded to a double first and then multiplied or divided by a
power of ten, rounded again each time, so that the result may be some steps away from the double
nearest to the text. -/
def read : List Char → Except Stop (Number × List Char)
  | '-' :: rest => unsigned true rest
  | text => unsigned false text

theorem length_rest_gather (limit value used : Nat) (text : List Char) :
    (gather limit value used text).rest.length ≤ text.length := by
  fun_induction gather limit value used text with
  | case1 => simp
  | case2 value used c rest _ ih => simp; omega
  | case3 => simp

theorem length_skipDigits (text : List Char) : (skipDigits text).length ≤ text.length :=
  (List.dropWhile_suffix _).length_le

theorem length_rest_of_whole {text : List Char} {scan : Scan} (h : whole text = .ok scan) :
    scan.rest.length < text.length := by
  unfold whole at h
  split at h
  · contradiction
  · rename_i c rest
    split at h
    · split at h <;> simp_all
      simp [← h]
    · split at h <;> simp at h
      subst h
      have hs := length_skipDigits (gather significandLimit (digitValue c) 0 rest).rest
      have hg := length_rest_gather significandLimit (digitValue c) 0 rest
      simp only [List.length_cons]
      omega

theorem length_rest_of_fraction {scan scan' : Scan} (h : fraction scan = .ok scan') :
    scan'.rest.length ≤ scan.rest.length := by
  unfold fraction at h
  split at h
  · rename_i rest hr
    split at h
    · simp at h
      subst h
      have hs := length_skipDigits (gather significandLimit scan.significand 0 rest).rest
      have hg := length_rest_gather significandLimit scan.significand 0 rest
      simp only [hr, List.length_cons]
      omega
    · split at h <;> contradiction
  · simp at h
    simp [h]

theorem length_rest_of_finish {negative : Bool} {scan : Scan} {n : Number} {rest : List Char}
    (h : finish negative scan = .ok (n, rest)) : rest = scan.rest := by
  unfold finish at h
  split at h <;> simp at h
  exact h.2.symm

theorem length_rest_of_powerDigits {negative down : Bool} {scan : Scan} {text rest : List Char}
    {n : Number} (h : powerDigits negative down scan text = .ok (n, rest)) :
    rest.length ≤ text.length := by
  unfold powerDigits at h
  have hg := length_rest_gather powerLimit 0 0 text
  have hs := length_skipDigits (gather powerLimit 0 0 text).rest
  split at h
  · contradiction
  · split at h
    · dsimp only at h
      split at h
      · split at h <;> simp at h
        rw [← h.2]
        omega
      · rw [length_rest_of_finish h]
        exact hg
    · contradiction

theorem length_rest_of_power {negative : Bool} {scan : Scan} {text rest : List Char} {n : Number}
    (h : power negative scan text = .ok (n, rest)) : rest.length ≤ text.length := by
  unfold power at h
  split at h <;> have := length_rest_of_powerDigits h <;> simp <;> omega

theorem length_rest_of_float {negative : Bool} {scan : Scan} {rest : List Char} {n : Number}
    (h : float negative scan = .ok (n, rest)) : rest.length ≤ scan.rest.length := by
  unfold float at h
  cases hf : fraction scan with
  | error => simp [hf, bind, Except.bind] at h
  | ok scan' =>
    have hl := length_rest_of_fraction hf
    simp only [hf, bind, Except.bind] at h
    split at h
    · rw [length_rest_of_finish h]
      exact hl
    · rename_i hr
      split at h
      · have := length_rest_of_power h
        simp [hr] at hl
        omega
      · rw [length_rest_of_finish h]
        exact hl

theorem length_rest_of_unsigned {negative : Bool} {text rest : List Char} {n : Number}
    (h : unsigned negative text = .ok (n, rest)) : rest.length < text.length := by
  unfold unsigned at h
  cases hw : whole text with
  | error => simp [hw, bind, Except.bind] at h
  | ok scan =>
    have hl := length_rest_of_whole hw
    simp only [hw, bind, Except.bind] at h
    split at h
    · split at h
      · simp at h
        simpa [← h.2] using hl
      · rw [length_rest_of_finish h]
        exact hl
    · have := length_rest_of_float h
      omega

theorem length_rest_of_read {text rest : List Char} {n : Number} (h : read text = .ok (n, rest)) :
    rest.length < text.length := by
  unfold read at h
  split at h <;> have := length_rest_of_unsigned h <;> simp <;> omega

end StructuralSchema.Json.Numeral
