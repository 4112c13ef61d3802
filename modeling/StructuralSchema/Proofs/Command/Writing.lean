import StructuralSchema.Proofs.Command.Judging
import StructuralSchema.Proofs.Files
import StructuralSchema.Proofs.Saving

namespace StructuralSchema

open List

def Command.output? : List String → Option String
  | [] => none
  | name :: arguments =>
    if name = "schema" then (valuesFor .out false arguments).head? else none

def Inputs.FindsOnly (inputs : Inputs) (disk : Disk) (input : Loaded) : Prop :=
  ∃ found : List (List String), Forall₂ (StandsFor disk) inputs.patterns found ∧
    found.flatten = [input.label] ∧ Finds disk inputs.pointer input.label input.given

/-- The run has written the shape of the only input to the path, as a text that ends without a line
break, and done nothing else. The input is what was there before, even where it is overwritten. -/
structure Ending.Saves (ending : Ending) (inputs : Inputs) (path : String) (disk : Disk)
    (input : Loaded) (shape : Schema Builtin) (location : Location) : Prop where
  found : inputs.FindsOnly disk input
  inferred : Schema.ofInstance input.given = .ok shape
  written : Disk.Written path shape.toDocument.indented.toUTF8 disk ending.disk location
  unbroken : shape.toDocument.indented.toList.getLast? = some '\x7d'
  out : ending.out = ""

namespace Json

theorem Layout.getLast?_enclose (layout : Layout) (depth : Nat) (first last : Char)
    (entries : List (List Char)) :
    (layout.enclose depth first last entries).getLast? = some last := by
  cases entries with
  | nil => rfl
  | cons entry rest => exact getLast?_concat

theorem getLast?_indented_object (members : Fields Json) :
    (object members).indented.toList.getLast? = some '\x7d' := by
  rw [indented, String.toList_ofList, Layout.write]
  exact Layout.getLast?_enclose _ _ _ _ _

end Json

theorem Inputs.load_eq_ok_singleton_iff {inputs : Inputs} {disk : Disk} {input : Loaded} :
    inputs.load disk = .ok [input] ↔ inputs.FindsOnly disk input := by
  rw [load_eq_ok_iff, FindsOnly]
  apply exists_congr
  intro found
  rw [forall₂_cons_right_iff]
  constructor
  · rintro ⟨hf, path, rest, ⟨rfl, hg⟩, hr, he⟩
    cases hr
    exact ⟨hf, he, hg⟩
  · rintro ⟨hf, he, hg⟩
    exact ⟨hf, input.label, [], ⟨rfl, hg⟩, .nil, he⟩

namespace Command

variable {inputs : Inputs} {out : Option String} {colours : Bool} {disk : Disk}
  {ending : Ending}

theorem runSchema_eq_ok_iff :
    runSchema inputs out disk = .ok ending ↔
      ∃ (input : Loaded) (shape : Schema Builtin), inputs.FindsOnly disk input ∧
        Schema.ofInstance input.given = .ok shape ∧
        (out = none ∧ ending = ⟨0, shape.toDocument.indented ++ "\n", "", disk⟩ ∨
          ∃ path, out = some path ∧
            ending = .ofSaving (disk.save path shape.toDocument.indented)) := by
  constructor
  · intro h
    obtain ⟨loaded, hl, h⟩ := bind_eq_ok_iff.mp h
    match loaded with
    | [] => cases h
    | [input] =>
      simp only [bind_eq_ok_iff, mapError_eq_ok_iff] at h
      obtain ⟨shape, hs, h⟩ := h
      refine ⟨input, shape, Inputs.load_eq_ok_singleton_iff.mp hl, hs, ?_⟩
      cases out with
      | none => exact .inl ⟨rfl, (pure_eq_ok_iff.mp h).symm⟩
      | some path => exact .inr ⟨path, rfl, (pure_eq_ok_iff.mp h).symm⟩
    | _ :: _ :: _ => cases h
  · rintro ⟨input, shape, hf, hs, ho⟩
    refine bind_eq_ok_iff.mpr ⟨_, Inputs.load_eq_ok_singleton_iff.mpr hf, ?_⟩
    refine bind_eq_ok_iff.mpr ⟨shape, mapError_eq_ok_iff.mpr hs, ?_⟩
    obtain ⟨rfl, rfl⟩ | ⟨path, rfl, rfl⟩ := ho <;> rfl

theorem ofSaving_cases (disk : Disk) (path text : String) :
    (Ending.ofSaving (disk.save path text)).exitCode ≠ 0 ∧
        (Ending.ofSaving (disk.save path text)).disk.SameFiles disk ∨
      (Ending.ofSaving (disk.save path text)).exitCode = 0 ∧
        (Ending.ofSaving (disk.save path text)).out = "" ∧
        ∃ location, Disk.Written path text.toUTF8 disk
          (Ending.ofSaving (disk.save path text)).disk location := by
  unfold Ending.ofSaving
  obtain ⟨ht, hs⟩ | ⟨ht, hw⟩ := disk.save_cases path text
  · obtain ⟨trouble, ht⟩ := Option.ne_none_iff_exists'.mp ht
    rw [ht]
    exact .inl ⟨Nat.one_ne_zero, hs⟩
  · rw [ht]
    exact .inr ⟨rfl, rfl, hw⟩

theorem run_schema_cases (inputs : Inputs) (out : Option String) (colours : Bool) (disk : Disk) :
    (((schema inputs out).run colours disk).exitCode ≠ 0 ∨ out = none) ∧
        ((schema inputs out).run colours disk).disk.SameFiles disk ∨
      ((schema inputs out).run colours disk).exitCode = 0 ∧
        ∃ path, out = some path ∧ ∃ input shape location,
          ((schema inputs out).run colours disk).Saves inputs path disk input shape location := by
  cases hr : runSchema inputs out disk with
  | error failure =>
    have hrun : (schema inputs out).run colours disk = .ofFailure disk failure := by
      rw [run, attempt, hr]
    rw [hrun]
    exact .inl ⟨.inl Nat.one_ne_zero, .refl disk⟩
  | ok ending =>
    have hrun : (schema inputs out).run colours disk = ending := by rw [run, attempt, hr]
    rw [hrun]
    obtain ⟨input, shape, hf, hs, ⟨ho, rfl⟩ | ⟨path, ho, rfl⟩⟩ := runSchema_eq_ok_iff.mp hr
    · exact .inl ⟨.inr ho, .refl disk⟩
    · obtain ⟨hc, hk⟩ | ⟨hc, he, location, hw⟩ :=
        ofSaving_cases disk path shape.toDocument.indented
      · exact .inl ⟨.inl hc, hk⟩
      · -- Only objects have shapes that can be inferred, and their documents end with a brace.
        obtain ⟨members, _, rfl⟩ := Schema.ofInstance_eq_ok_iff.mp hs
        exact .inr ⟨hc, path, ho, input, _, location, hf, hs, hw,
          Json.getLast?_indented_object _, he⟩

theorem exists_schema_of_ofArguments {arguments : List String} {command : Command}
    (h : ofArguments ("schema" :: arguments) = .ok command) :
    command = .schema (Inputs.named arguments) (valuesFor .out false arguments).head? := by
  simp only [ofArguments, schemaOfArguments, if_true, bind_eq_ok_iff, pure_eq_ok_iff] at h
  obtain ⟨values, hv, found, hi, rfl⟩ := h
  have ha : Switch.Apart (.out :: inputSwitches) := by decide
  have hout : all values .out = valuesFor .out false arguments :=
    all_readSwitches ha mem_cons_self rfl hv
  rw [Inputs.eq_named_of_readSwitches ha (fun _ => mem_cons_of_mem _) hv hi, one?, hout]

theorem disk_run_of_ne_schema {name : String} {arguments : List String} {command : Command}
    (hn : name ≠ "schema") (h : ofArguments (name :: arguments) = .ok command) :
    (command.run colours disk).disk = disk := by
  by_cases hj : name = "check" ∨ name = "validate"
  · obtain ⟨task, rfl, -⟩ := exists_askedBy_of_ofArguments hj h
    cases task.ends_run colours disk <;> assumption
  · obtain ⟨hc, hv⟩ := not_or.mp hj
    rw [ofArguments, if_neg hn, if_neg hc, if_neg hv] at h
    split at h <;> cases h

end Command

open Command

/-- Whatever arguments are accepted, their run changes no file unless it succeeds in writing the one
that it is asked for, and that file then holds the shape of the only input. -/
theorem saves_or_sameFiles_of_ofArguments {arguments : List String} {command : Command}
    (h : Command.ofArguments arguments = .ok command) (colours : Bool) (disk : Disk) :
    let ending := command.run colours disk
    (ending.exitCode ≠ 0 ∨ output? arguments = none → ending.disk.SameFiles disk) ∧
      ∀ path, output? arguments = some path → ending.exitCode = 0 →
        ∃ input shape location,
          ending.Saves (Inputs.named arguments.tail) path disk input shape location := by
  intro ending
  cases arguments with
  | nil => cases h
  | cons name arguments =>
    by_cases hn : name = "schema"
    · subst hn
      obtain rfl := exists_schema_of_ofArguments h
      obtain ⟨hc, hs⟩ | ⟨hc, path, ho, hs⟩ := run_schema_cases (Inputs.named arguments)
        (valuesFor .out false arguments).head? colours disk
      · refine ⟨fun _ => hs, fun path ho hz => ?_⟩
        obtain hc | hc := hc
        · exact absurd hz hc
        · cases hc.symm.trans ho
      · refine ⟨fun hor => ?_, fun other ho' _ => ?_⟩
        · obtain hne | hnone := hor
          · exact absurd hc hne
          · cases ho.symm.trans hnone
        · cases ho.symm.trans ho'
          exact hs
    · have hnone : output? (name :: arguments) = none := if_neg hn
      have hd : ending.disk = disk := disk_run_of_ne_schema hn h
      refine ⟨fun _ => hd ▸ .refl _, fun path ho => ?_⟩
      cases hnone.symm.trans ho

theorem saves_of_ofArguments_same :
    let arguments := ["schema", "-i", "a.json", "--out=./a.json"]
    let command : Command := .schema ⟨["a.json"], none⟩ (some "./a.json")
    let members : Fields Json := [("n", .null)]
    let disk : Disk := ⟨[(["a.json"], .file (Json.object members).compact.toUTF8)], []⟩
    let ending := command.run false disk
    Command.ofArguments arguments = .ok command ∧ ending.exitCode = 0 ∧
      ∃ input shape location,
        ending.Saves ⟨["a.json"], none⟩ "./a.json" disk input shape location := by
  intro arguments command members disk ending
  have h : Command.ofArguments arguments = .ok command := by rfl
  have hw : (Json.object members).Whole := by
    simp [members, Json.Whole, Json.MembersWhole]
  have hread : disk.read "a.json" = .ok (Json.object members).compact := by decide
  have hf : (Inputs.named arguments.tail).FindsOnly disk
      ⟨"a.json", .text (Json.object members).compact⟩ :=
    ⟨[["a.json"]], .cons rfl .nil, rfl, _, hread, rfl⟩
  have hs : Schema.ofInstance (.text (Json.object members).compact) =
      .ok (Schema.ofValue (.object members) : Schema Builtin) :=
    Schema.ofInstance_compact (by decide) hw (by decide)
  have hr : command.attempt false disk = .ok _ :=
    runSchema_eq_ok_iff.mpr ⟨_, _, hf, hs, .inr ⟨_, rfl, rfl⟩⟩
  have hc : ending.exitCode = 0 := by
    simp only [ending, run, hr]
    rfl
  exact ⟨h, hc, (saves_or_sameFiles_of_ofArguments h false disk).2 _ (by rfl) hc⟩

end StructuralSchema
