import StructuralSchema.Disk
import StructuralSchema.Proofs.Results

namespace StructuralSchema

def Node.content? : Node → Option ByteArray
  | file content => some content
  | directory => none

namespace Disk

def file? (disk : Disk) (location : Location) : Option ByteArray :=
  (disk.node? location).bind Node.content?

def SameFiles (disk other : Disk) : Prop :=
  ∀ location, disk.file? location = other.file? location

variable {disk other : Disk} {location origin : Location} {path text : String}

theorem SameFiles.refl (disk : Disk) : disk.SameFiles disk :=
  fun _ => rfl

theorem SameFiles.trans {third : Disk} (h : disk.SameFiles other) (h' : other.SameFiles third) :
    disk.SameFiles third :=
  fun location => (h location).trans (h' location)

theorem file?_put (hn : location ≠ []) (node : Node) (place : Location) :
    (disk.put location node).file? place =
      if place = location then node.content? else disk.file? place := by
  rw [file?, node?_put]
  by_cases hp : place = location
  · simp [hp, hn]
  · by_cases hr : place = []
    · simp [hr, hn.symm, file?, node?]
    · simp [hp, hr, file?]

section Directories

theorem sameFiles_put_directory (h : disk.node? location = none) :
    (disk.put location .directory).SameFiles disk := by
  intro place
  have hn : location ≠ [] := by
    rintro rfl
    simp [node?] at h
  rw [file?_put hn]
  by_cases hp : place = location
  · simp [hp, file?, h, Node.content?]
  · rw [if_neg hp]

theorem sameFiles_makeDirectory {steps : List String} {name : String}
    (h : disk.makeDirectory location steps name = .ok other) : other.SameFiles disk := by
  rw [makeDirectory, bind_eq_ok_iff] at h
  obtain ⟨parent, -, h⟩ := h
  split at h
  · cases h
  · split at h
    · cases h
    · split at h
      · rename_i hn
        cases h
        exact sameFiles_put_directory hn
      · cases h

theorem sameFiles_makeOrFind (disk : Disk) (location : Location) (steps : List String)
    (name : String) : (disk.makeOrFind location steps name).disk.SameFiles disk := by
  unfold makeOrFind
  split
  · rename_i made h
    exact sameFiles_makeDirectory h
  · exact .refl disk

theorem Aftermath.sameFiles_andThen {first : Aftermath} {next : Disk → Aftermath}
    (h : first.disk.SameFiles disk) (hn : ∀ left : Disk, (next left).disk.SameFiles left) :
    (first.andThen next).disk.SameFiles disk := by
  unfold andThen
  split
  · exact (hn first.disk).trans h
  · exact h

theorem sameFiles_ensureDirectory (disk : Disk) (location : Location) (steps : List String) :
    (disk.ensureDirectory location steps).disk.SameFiles disk := by
  induction steps with
  | nil => exact .refl disk
  | cons name above ih =>
    have hfind : ∀ left : Disk,
        (left.makeOrFind location above.reverse name).disk.SameFiles left := fun left =>
      sameFiles_makeOrFind left location above.reverse name
    unfold ensureDirectory
    split
    · exact Aftermath.sameFiles_andThen ih hfind
    · exact hfind disk

end Directories

section Ways

/-- The steps lead from one location to another. Each but the last has to arrive at a directory. -/
inductive Leads (disk : Disk) : Location → List String → Location → Prop where
  | here (location : Location) : Leads disk location [] location
  | stay {location target : Location} {rest : List String} (hd : disk.isDirectory location = true)
      (h : Leads disk location rest target) : Leads disk location ("." :: rest) target
  | up {location target : Location} {rest : List String} (hd : disk.isDirectory location = true)
      (h : Leads disk location.dropLast rest target) : Leads disk location (".." :: rest) target
  | down {location target : Location} {step : String} {rest : List String}
      (hd : disk.isDirectory location = true) (hs : step ≠ "." ∧ step ≠ "..")
      (hn : disk.node? (location ++ [step]) ≠ none)
      (h : Leads disk (location ++ [step]) rest target) : Leads disk location (step :: rest) target

theorem follow_eq_ok_iff {steps : List String} {target : Location} :
    disk.follow origin steps = .ok target ↔ disk.Leads origin steps target := by
  constructor
  · intro h
    induction steps generalizing origin with
    | nil =>
      cases h
      exact .here _
    | cons step rest ih =>
      rw [follow] at h
      split at h
      · cases h
      · rename_i hd
        replace hd : disk.isDirectory origin = true := by simpa using hd
        split at h
        · rename_i hs
          exact hs ▸ .stay hd (ih h)
        · split at h
          · rename_i hs
            exact hs ▸ .up hd (ih h)
          · split at h
            · cases h
            · exact .down hd ⟨‹_›, ‹_›⟩ ‹_› (ih h)
  · intro h
    induction h with
    | here location => rfl
    | stay hd _ ih => simp [follow, hd, ih]
    | up hd _ ih => simp [follow, hd, ih]
    | down hd hs hn _ ih => simp [follow, hd, hs, hn, ih]

theorem Leads.concat {steps : List String} {parent : Location} {name : String}
    (h : disk.Leads origin steps parent) (hd : disk.isDirectory parent = true)
    (hs : name ≠ "." ∧ name ≠ "..") (hn : disk.node? (parent ++ [name]) ≠ none) :
    disk.Leads origin (steps ++ [name]) (parent ++ [name]) := by
  induction h with
  | here location => exact .down hd hs hn (.here _)
  | stay hl _ ih => exact .stay hl (ih hd hn)
  | up hl _ ih => exact .up hl (ih hd hn)
  | down hl hs' hn' _ ih => exact .down hl hs' hn' (ih hd hn)

end Ways

section Writing

variable {content : ByteArray}

theorem isDirectory_put_file {place : Location} (h : disk.isDirectory location = false)
    (hp : disk.isDirectory place = true) :
    (disk.put location (.file content)).isDirectory place = true := by
  have hne : place ≠ location := by
    rintro rfl
    rw [h] at hp
    cases hp
  simp only [isDirectory, decide_eq_true_eq, node?_put] at hp ⊢
  simp [hne, hp]

theorem node?_put_ne_none {place : Location} (h : disk.node? place ≠ none) :
    (disk.put location (.file content)).node? place ≠ none := by
  rw [node?_put]
  split
  · simp
  · split
    · simp
    · exact h

theorem Leads.put_file {steps : List String} {target : Location}
    (h : disk.isDirectory location = false) (hl : disk.Leads origin steps target) :
    (disk.put location (.file content)).Leads origin steps target := by
  induction hl with
  | here place => exact .here place
  | stay hd _ ih => exact .stay (isDirectory_put_file h hd) ih
  | up hd _ ih => exact .up (isDirectory_put_file h hd) ih
  | down hd hs hn _ ih => exact .down (isDirectory_put_file h hd) hs (node?_put_ne_none hn) ih

/-- The path leads to a file with the content, and every other file is as it was. -/
structure Written (path : String) (content : ByteArray) (before after : Disk)
    (location : Location) : Prop where
  leads : after.locate path = .ok location
  content : after.file? location = some content
  others : ∀ other ≠ location, after.file? other = before.file? other

/-- What is written is a file with a name of its own, in a directory that is there. -/
theorem write_eq_ok (h : disk.write path text = .ok other) :
    ∃ above name parent, steps path = above ++ [name] ∧ hasSlashAtEnd path = false ∧
      (name ≠ "." ∧ name ≠ "..") ∧ disk.Leads (disk.start path) above parent ∧
      disk.isDirectory parent = true ∧ disk.isDirectory (parent ++ [name]) = false ∧
      other = disk.put (parent ++ [name]) (.file text.toUTF8) := by
  unfold write at h
  split at h
  · split at h <;> cases h
  · rename_i name above hr
    obtain ⟨parent, hf, h⟩ := bind_eq_ok_iff.mp h
    have hsteps : steps path = above.reverse ++ [name] := by
      rw [← List.reverse_reverse (steps path), hr, List.reverse_cons]
    refine ⟨above.reverse, name, parent, hsteps, ?_⟩
    simp only at h
    split at h
    · cases h
    · rename_i hd
      split at h
      · cases h
      · rename_i hname
        split at h
        · cases h
        · rename_i hfree
          cases h
          simp only [not_or] at hname
          exact ⟨by simpa using hname.1, hname.2, follow_eq_ok_iff.mp hf, by simpa using hd,
            by simpa using hfree, rfl⟩

theorem exists_written_of_write (h : disk.write path text = .ok other) :
    ∃ location, Written path text.toUTF8 disk other location := by
  obtain ⟨above, name, parent, hsteps, hslash, hname, hl, hd, hfree, rfl⟩ := write_eq_ok h
  have hplace : parent ++ [name] ≠ [] := by simp
  have hpath : path ≠ "" := by
    rintro rfl
    simp [steps, Text.split] at hsteps
  refine ⟨parent ++ [name], ?_, ?_, fun place hp => ?_⟩
  · have hnode : (disk.put (parent ++ [name]) (.file text.toUTF8)).node? (parent ++ [name]) ≠
        none := by simp [node?_put]
    -- The way to the directory was there before the file was, and the file is no obstacle on it.
    have hway := (hl.put_file hfree).concat (isDirectory_put_file hfree hd) hname hnode
    have hstart : (disk.put (parent ++ [name]) (.file text.toUTF8)).start path = disk.start path :=
      rfl
    rw [locate, if_neg hpath, hslash, hsteps, hstart]
    simpa using follow_eq_ok_iff.mpr hway
  · rw [file?_put hplace, if_pos rfl]
    rfl
  · rw [file?_put hplace, if_neg hp]

end Writing

section Saving

theorem Written.of_sameFiles {content : ByteArray} {third : Disk}
    (h : Written path content other third location) (hs : other.SameFiles disk) :
    Written path content disk third location :=
  ⟨h.leads, h.content, fun place hp => (h.others place hp).trans (hs place)⟩

theorem save_cases (disk : Disk) (path text : String) :
    ((disk.save path text).trouble ≠ none ∧ (disk.save path text).disk.SameFiles disk) ∨
      ((disk.save path text).trouble = none ∧
        ∃ location, Written path text.toUTF8 disk (disk.save path text).disk location) := by
  simp only [save]
  generalize ((steps path).filter (· ≠ ".")).reverse.drop 1 = above
  have hs := sameFiles_ensureDirectory disk (disk.start path) above
  cases ht : (disk.ensureDirectory (disk.start path) above).trouble with
  | some trouble => simp [Aftermath.andThen, ht, hs]
  | none =>
    cases hw : (disk.ensureDirectory (disk.start path) above).disk.write path text with
    | error trouble => simp [Aftermath.andThen, Aftermath.ofStep, ht, hw, hs]
    | ok written =>
      obtain ⟨location, hl⟩ := exists_written_of_write hw
      simp only [Aftermath.andThen, ht, hw]
      exact .inr ⟨rfl, location, hl.of_sameFiles hs⟩

end Saving

end Disk

end StructuralSchema
