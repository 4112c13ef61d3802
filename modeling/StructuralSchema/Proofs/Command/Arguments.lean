import StructuralSchema.Command
import StructuralSchema.Proofs.Results

namespace StructuralSchema

def Switch.Apart (switches : List Switch) : Prop :=
  ∀ switch ∈ switches, ∀ other ∈ switches,
    switch.name = other.name ∨ switch.letter.isSome ∧ switch.letter = other.letter → switch = other

instance (switches : List Switch) : Decidable (Switch.Apart switches) :=
  inferInstanceAs (Decidable (∀ switch ∈ switches, ∀ other ∈ switches,
    switch.name = other.name ∨ switch.letter.isSome ∧ switch.letter = other.letter →
      switch = other))

namespace Command

def Argument.begins (switch : Switch) : Argument → Bool
  | .long name _ => switch.name = name
  | .short letter _ => switch.letter = some letter
  | _ => false

def Argument.attached? : Argument → Option String
  | .long _ attached => attached
  | .short _ attached => attached
  | _ => none

/-- The values that the arguments give to a switch: one that is attached to it, or else all that
follow it up to the next switch. What comes before any switch is for this one if it is open. -/
def valuesFor (switch : Switch) (isOpen : Bool) : List String → List String
  | [] => []
  | text :: rest =>
    match Argument.ofText text with
    | .divider => []
    | .plain value => (if isOpen then [value] else []) ++ valuesFor switch isOpen rest
    | argument =>
      (if argument.begins switch then argument.attached?.toList else []) ++
        valuesFor switch (argument.begins switch && argument.attached?.isNone) rest

def mentions (switch : Switch) (arguments : List String) : Bool :=
  arguments.any fun text => (Argument.ofText text).begins switch

def Pending.isOf (switch : Switch) : Pending → Bool
  | some (other, _) => switch.name = other.name
  | none => false

def Pending.valuesOf (switch : Switch) : Pending → List String
  | some (other, given) => if switch.name = other.name then given else []
  | none => []

/-- What was read of a switch. The reader keeps the values of the switch that it is at apart until
the next one begins. -/
def read (switch : Switch) (values : Values) (pending : Pending) : List String :=
  all values switch ++ pending.valuesOf switch

def isRead (switch : Switch) (values : Values) (pending : Pending) : Bool :=
  isGiven values switch || pending.isOf switch

section Steps

variable {switch other : Switch} {values result : Values} {pending : Pending}

/-- What a switch is given goes behind what it was given before. -/
theorem record_eq_put {given : List String} (h : record values other given = .ok result) :
    result = values.put other.name (all values other ++ given) := by
  unfold record at h
  split at h
  · cases h
  · split at h
    · cases h
    · split at h
      · rename_i before hb
        split at h
        · cases h
          rw [all, hb]
          rfl
        · cases h
      · rename_i hb
        split at h
        · cases h
        · cases h
          rw [all, hb]
          rfl

theorem all_record {given : List String} (h : record values other given = .ok result) :
    all result switch = read switch values (some (other, given)) := by
  rw [record_eq_put h, all, Fields.get?_put, read, Pending.valuesOf]
  by_cases hn : switch.name = other.name
  · rw [if_pos hn, if_pos hn, Option.getD_some, all, all, hn]
  · rw [if_neg hn, if_neg hn, List.append_nil, all]

theorem isGiven_record {given : List String} (h : record values other given = .ok result) :
    isGiven result switch = isRead switch values (some (other, given)) := by
  rw [record_eq_put h, isGiven, Fields.get?_put, isRead, Pending.isOf]
  by_cases hn : switch.name = other.name
  · simp [hn]
  · simp [hn, isGiven]

theorem all_settle (h : settle values pending = .ok result) :
    all result switch = read switch values pending := by
  cases pending with
  | none =>
    cases h
    exact (List.append_nil _).symm
  | some entry => exact all_record h

theorem isGiven_settle (h : settle values pending = .ok result) :
    isGiven result switch = isRead switch values pending := by
  cases pending with
  | none =>
    cases h
    exact (Bool.or_false _).symm
  | some entry => exact isGiven_record h

/-- A switch that begins either has its values at once, none or the attached one, or takes those
that follow. -/
theorem begin_eq_ok {attached : Option String} {next : Values × Pending}
    (h : begin values pending other attached = .ok next) :
    ∃ settled, settle values pending = .ok settled ∧
      ((attached.isSome ∨ other.isBare) ∧
          record settled other attached.toList = .ok next.1 ∧ next.2 = none ∨
        (attached = none ∧ other.isBare = false) ∧
          next = (settled, some (other, []))) := by
  simp only [begin, bind_eq_ok_iff] at h
  obtain ⟨settled, hs, h⟩ := h
  refine ⟨settled, hs, ?_⟩
  cases attached with
  | some value =>
    simp only [bind_eq_ok_iff, pure_eq_ok_iff] at h
    obtain ⟨recorded, hr, rfl⟩ := h
    exact .inl ⟨.inl rfl, hr, rfl⟩
  | none =>
    by_cases hbare : other.isBare = true
    · simp only [hbare, if_true, bind_eq_ok_iff, pure_eq_ok_iff] at h
      obtain ⟨recorded, hr, rfl⟩ := h
      exact .inl ⟨.inr hbare, hr, rfl⟩
    · simp only [hbare, Bool.false_eq_true, if_false, pure_eq_ok_iff] at h
      exact .inr ⟨⟨rfl, by simpa using hbare⟩, h.symm⟩

theorem read_begin {attached : Option String} {next : Values × Pending}
    (h : begin values pending other attached = .ok next) :
    read switch next.1 next.2 = read switch values pending ++
      (if switch.name = other.name then attached.toList else []) := by
  obtain ⟨settled, hs, ⟨-, hr, hn⟩ | ⟨⟨rfl, -⟩, rfl⟩⟩ := begin_eq_ok h
  · have hall : all next.1 switch = read switch settled (some (other, attached.toList)) :=
      all_record hr
    rw [read, hn, hall, read, all_settle hs]
    exact List.append_nil _
  · rw [read, all_settle hs]
    rfl

theorem isOf_begin {attached : Option String} {next : Values × Pending}
    (h : begin values pending other attached = .ok next) :
    next.2.isOf switch =
      (decide (switch.name = other.name) && (attached.isNone && !other.isBare)) := by
  obtain ⟨settled, -, ⟨hb, -, hn⟩ | ⟨⟨rfl, hb⟩, rfl⟩⟩ := begin_eq_ok h
  · rw [hn, Pending.isOf]
    obtain hb | hb := hb
    · simp [Option.isNone_eq_false_iff.mpr hb]
    · simp [hb]
  · simp [Pending.isOf, hb]

theorem isRead_begin {attached : Option String} {next : Values × Pending}
    (h : begin values pending other attached = .ok next) :
    isRead switch next.1 next.2 =
      (isRead switch values pending || decide (switch.name = other.name)) := by
  obtain ⟨settled, hs, ⟨-, hr, hn⟩ | ⟨-, rfl⟩⟩ := begin_eq_ok h
  · rw [isRead, hn, isGiven_record hr, isRead, isGiven_settle hs]
    exact Bool.or_false _
  · rw [isRead, isGiven_settle hs]
    rfl

theorem exists_of_match_find? {p : Switch → Bool} {switches : List Switch} {usage : Usage}
    {next : Switch → Except Usage Values}
    (h : (match switches.find? p with
      | none => Except.error usage
      | some other => next other) = .ok result) :
    ∃ other ∈ switches, p other = true ∧ next other = .ok result := by
  cases hf : switches.find? p with
  | none =>
    rw [hf] at h
    cases h
  | some other =>
    rw [hf] at h
    exact ⟨other, List.mem_of_find?_eq_some hf, List.find?_some hf, h⟩

/-- An argument that is accepted ends the switches, or begins one of them, or is a value of the one
that began last. A switch that takes no value has none attached to its name, and what is attached to
its letter is passed over. -/
theorem readSwitches_cons_eq_ok {switches : List Switch} {text : String} {rest : List String}
    (h : readSwitches switches values pending (text :: rest) = .ok result) :
    (Argument.ofText text = .divider ∧ rest = [] ∧ settle values pending = .ok result) ∨
    (∃ other ∈ switches, (Argument.ofText text).begins other ∧ ∃ next,
      begin values pending other
          (if other.isBare then none else (Argument.ofText text).attached?) = .ok next ∧
        readSwitches switches next.1 next.2 rest = .ok result) ∨
    (∃ value other given, Argument.ofText text = .plain value ∧ pending = some (other, given) ∧
      readSwitches switches values (some (other, given ++ [value])) rest = .ok result) := by
  rw [readSwitches] at h
  cases ha : Argument.ofText text with
  | divider =>
    simp only [ha] at h
    split at h
    · rename_i he
      exact .inl ⟨rfl, List.isEmpty_iff.mp he, h⟩
    · cases h
  | long name attached =>
    simp only [ha] at h
    obtain ⟨other, hs, hname, h⟩ := exists_of_match_find? h
    split at h
    · cases h
    · rename_i hneed
      obtain ⟨next, hn, hr⟩ := bind_eq_ok_iff.mp h
      refine .inr (.inl ⟨other, hs, hname, next, ?_, hr⟩)
      rw [← hn]
      split
      · rename_i hbare
        have hnone : attached = none := by simpa [hbare] using hneed
        rw [hnone]
      · rfl
  | short letter attached =>
    simp only [ha] at h
    obtain ⟨other, hs, hletter, h⟩ := exists_of_match_find? h
    obtain ⟨next, hn, hr⟩ := bind_eq_ok_iff.mp h
    exact .inr (.inl ⟨other, hs, hletter, next, hn, hr⟩)
  | plain value =>
    simp only [ha] at h
    cases pending with
    | none => cases h
    | some entry =>
      obtain ⟨other, given⟩ := entry
      simp only at h
      split at h
      · exact .inr (.inr ⟨value, other, given, rfl, rfl, h⟩)
      · cases h

end Steps

/-- Of switches that are apart, the argument begins at most one. -/
theorem Argument.begins_eq {switch other : Switch} {switches : List Switch}
    (ha : Switch.Apart switches) (hs : switch ∈ switches) (ho : other ∈ switches)
    {argument : Argument} (hb : argument.begins other) :
    argument.begins switch = decide (switch.name = other.name) := by
  cases argument with
  | long name attached =>
    have hn : other.name = name := by simpa [begins] using hb
    rw [hn, begins]
  | short letter attached =>
    have hl : other.letter = some letter := by simpa [begins] using hb
    rw [begins, decide_eq_decide]
    constructor
    · intro hsl
      rw [ha switch hs other ho (.inr ⟨by simp [hsl], hsl.trans hl.symm⟩)]
    · intro hn
      rw [ha switch hs other ho (.inl hn), hl]
  | divider => cases hb
  | plain value => cases hb

theorem valuesFor_cons_of_begins {switch other : Switch} {isOpen : Bool} {text : String}
    {rest : List String} (h : (Argument.ofText text).begins other) :
    valuesFor switch isOpen (text :: rest) =
      (if (Argument.ofText text).begins switch then (Argument.ofText text).attached?.toList
        else []) ++
        valuesFor switch
          ((Argument.ofText text).begins switch && (Argument.ofText text).attached?.isNone)
          rest := by
  rw [valuesFor]
  cases ha : Argument.ofText text with
  | long name attached => rfl
  | short letter attached => rfl
  | divider =>
    rw [ha] at h
    cases h
  | plain value =>
    rw [ha] at h
    cases h

section Runs

variable {switch : Switch} {switches : List Switch} {values result : Values} {pending : Pending}
  {arguments : List String}

/-- After all arguments a switch that takes values has those read before and those that the
arguments give to it. -/
theorem all_readSwitches (ha : Switch.Apart switches) (hs : switch ∈ switches)
    (ht : switch.isBare = false)
    (h : readSwitches switches values pending arguments = .ok result) :
    all result switch =
      read switch values pending ++ valuesFor switch (pending.isOf switch) arguments := by
  induction arguments generalizing values pending with
  | nil =>
    rw [valuesFor, List.append_nil]
    exact all_settle h
  | cons text rest ih =>
    obtain ⟨hd, -, hsettle⟩ | ⟨other, ho, hb, next, hn, hr⟩ | ⟨value, other, given, hp, rfl, hr⟩ :=
      readSwitches_cons_eq_ok h
    · rw [valuesFor, hd, List.append_nil]
      exact all_settle hsettle
    · rw [ih hr, valuesFor_cons_of_begins hb, Argument.begins_eq ha hs ho hb, read_begin hn,
        isOf_begin hn]
      by_cases heq : switch.name = other.name
      · have hbare : other.isBare = false := ha switch hs other ho (.inl heq) ▸ ht
        simp [heq, hbare]
      · simp [heq]
    · rw [ih hr, valuesFor, hp]
      by_cases heq : switch.name = other.name <;> simp [read, Pending.valuesOf, Pending.isOf, heq]

theorem isGiven_readSwitches (ha : Switch.Apart switches) (hs : switch ∈ switches)
    (h : readSwitches switches values pending arguments = .ok result) :
    isGiven result switch = (isRead switch values pending || mentions switch arguments) := by
  induction arguments generalizing values pending with
  | nil =>
    rw [mentions, List.any_nil, Bool.or_false]
    exact isGiven_settle h
  | cons text rest ih =>
    rw [mentions, List.any_cons, ← mentions]
    obtain ⟨hd, rfl, hsettle⟩ | ⟨other, ho, hb, next, hn, hr⟩ | ⟨value, _, given, hp, rfl, hr⟩ :=
      readSwitches_cons_eq_ok h
    · rw [hd, isGiven_settle hsettle]
      exact (Bool.or_false _).symm
    · rw [ih hr, isRead_begin hn, Argument.begins_eq ha hs ho hb, Bool.or_assoc]
    · rw [ih hr, hp]
      rfl

end Runs

end Command

namespace Inputs

variable {switches : List Switch} {arguments : List String} {values : Command.Values}
  {found : Inputs}

def named (arguments : List String) : Inputs :=
  ⟨Command.valuesFor .input false arguments, (Command.valuesFor .pointer false arguments).head?⟩

theorem eq_named_of_readSwitches (ha : Switch.Apart switches)
    (hm : ∀ switch ∈ Command.inputSwitches, switch ∈ switches)
    (h : Command.readSwitches switches [] none arguments = .ok values)
    (hi : Command.inputs values = .ok found) : found = named arguments := by
  have hinput : Command.all values .input = Command.valuesFor .input false arguments :=
    Command.all_readSwitches ha (hm .input (by decide)) rfl h
  have hpointer : Command.all values .pointer = Command.valuesFor .pointer false arguments :=
    Command.all_readSwitches ha (hm .pointer (by decide)) rfl h
  rw [named, ← hinput, ← hpointer]
  unfold Command.inputs at hi
  split at hi <;> cases hi
  rfl

end Inputs

end StructuralSchema
