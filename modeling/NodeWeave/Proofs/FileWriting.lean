import Mathlib.Data.List.Basic
import NodeWeave.FileTree

/-!
# Writing a file

A text is written in two steps: the directories of the path are made as far as they are
missing, and the file is put into the last of them.  The first step touches no file
(`makeDirectories_eq_ok`), and afterwards the path leads through the directories that
were made (`follow_made`).  So a file that was written is found under its path, and no other
file has changed (`writeText_eq_none`).  Where writing fails the files are as they were,
unless the text keeps a half: then the file is there and empty (`writeText_eq_some`).  A
path that names a device leads past the files (`writeText_of_device`).
-/

namespace NodeWeave

/-- The location that some parts lead to from a directory. -/
def Location.walk (dir : Location) : List String → Location
  | [] => dir
  | part :: rest => walk (if part = ".." then Location.parent dir else dir ++ [part]) rest

/-- The location that a path names. -/
def Path.location (p : Path) : Location :=
  Location.walk (Location.start p) p.parts

theorem Location.walk_append (dir : Location) (parts rest : List String) :
    walk dir (parts ++ rest) = walk (walk dir parts) rest := by
  induction parts generalizing dir with
  | nil => rfl
  | cons part parts ih => exact ih _

namespace FileTree

variable {t u made : FileTree} {dir reached l : Location} {parts : List String} {p : Path}
  {text : String} {fault : Fault}

/-- With the same files and more directories, a directory is still one. -/
theorem isDirectory_mono (hfiles : u.files = t.files)
    (hdirectories : ∀ l ∈ t.directories, l ∈ u.directories) (hl : t.isDirectory l = true) :
    u.isDirectory l = true := by
  simp only [isDirectory, Bool.or_eq_true, List.contains_iff_mem] at hl ⊢
  rw [hfiles]
  exact hl.imp_left fun h => h.imp_right (hdirectories l)

/-! ## Making directories -/

/-- What happens at one part of a path, whether its directory was there or is made. -/
theorem makeDirectories_cons {part : String} {rest : List String} (hup : part ≠ "..")
    (h : t.makeDirectories dir (part :: rest) = .ok (made, reached)) :
    ¬ Path.maxName < Text.byteSize part ∧ t.file? (dir ++ [part]) = none ∧
      ∃ s : FileTree, s.files = t.files ∧ s.devices = t.devices ∧
        (∀ l ∈ t.directories, l ∈ s.directories) ∧ s.isDirectory (dir ++ [part]) = true ∧
        s.makeDirectories (dir ++ [part]) rest = .ok (made, reached) := by
  rw [makeDirectories, if_neg hup] at h
  split at h
  · cases h
  · rename_i hlength
    dsimp only at h
    split at h
    · cases h
    · rename_i hfile
      refine ⟨hlength, by simpa using hfile, ?_⟩
      split at h
      · rename_i hdirectory
        exact ⟨t, rfl, rfl, fun _ hl => hl, hdirectory, h⟩
      · refine ⟨{ t with directories := t.directories ++ [dir ++ [part]] }, rfl, rfl, ?_, ?_, h⟩
        · exact fun l hl => List.mem_append_left _ hl
        · simp [isDirectory]

/-- **Making directories touches no file** and no device. -/
theorem makeDirectories_eq_ok (h : t.makeDirectories dir parts = .ok (made, reached)) :
    made.files = t.files ∧ made.devices = t.devices ∧
      (∀ l ∈ t.directories, l ∈ made.directories) ∧ reached = dir.walk parts := by
  induction parts generalizing t dir with
  | nil =>
      cases h
      exact ⟨rfl, rfl, fun _ hl => hl, rfl⟩
  | cons part parts ih =>
      rw [Location.walk]
      by_cases hup : part = ".."
      · rw [makeDirectories, if_pos hup] at h
        rw [if_pos hup]
        exact ih h
      · obtain ⟨_, _, s, hs, hsame, hgrow, _, h⟩ := makeDirectories_cons hup h
        obtain ⟨hfiles, hdevices, hdirectories, hreached⟩ := ih h
        rw [if_neg hup]
        exact ⟨hfiles.trans hs, hdevices.trans hsame, fun l hl => hdirectories l (hgrow l hl),
          hreached⟩

/-- **A path leads through the directories that were made,** also in a later tree that
has them still. -/
theorem follow_made (h : t.makeDirectories dir parts = .ok (made, reached))
    (hkept : ∀ l, made.isDirectory l = true → made.file? l = none →
      u.isDirectory l = true ∧ u.file? l = none) (rest : List String) :
    u.follow dir (parts ++ rest) = u.follow reached rest := by
  induction parts generalizing t dir with
  | nil =>
      cases h
      rfl
  | cons part parts ih =>
      rw [List.cons_append, follow]
      by_cases hup : part = ".."
      · rw [makeDirectories, if_pos hup] at h
        rw [if_pos hup]
        exact ih h
      · obtain ⟨hlength, hnone, s, hs, hsame, _, hdirectory, h⟩ := makeDirectories_cons hup h
        obtain ⟨hfiles, hdevices, hdirectories, _⟩ := makeDirectories_eq_ok h
        have hmade : made.file? (dir ++ [part]) = none := by
          rw [file?, hfiles, hs, hdevices, hsame]
          exact hnone
        obtain ⟨hdir, hfile⟩ := hkept _ (isDirectory_mono hfiles hdirectories hdirectory) hmade
        rw [if_neg hup, if_neg hlength]
        simp only [hfile, hdir, if_true]
        exact ih h

/-! ## Putting a file -/

/-- With one more file, a directory is still one. -/
theorem isDirectory_put (contents : ByteArray) (here : Location) (hl : t.isDirectory l = true) :
    (t.put here contents).isDirectory l = true := by
  simp only [put, isDirectory, Bool.or_eq_true, List.any_eq_true] at hl ⊢
  refine hl.imp_right fun ⟨entry, hentry, hbelow⟩ => ?_
  have hkey : entry.1 ∈ (t.files.put here contents).keys :=
    (Table.keys_sublist_put t.files here contents).subset (List.mem_map_of_mem hentry)
  obtain ⟨other, hother, heq⟩ := List.mem_map.mp hkey
  exact ⟨other, hother, by rw [heq]; exact hbelow⟩

theorem file?_put {here : Location} (contents : ByteArray) (hplain : t.devices.get? here = none) :
    (t.put here contents).file? l = if here = l then some contents else t.file? l := by
  simp only [file?, put, Table.get?_put]
  by_cases hhere : here = l
  · rw [← hhere, hplain, if_pos rfl]
  · rw [if_neg hhere, if_neg hhere]

/-- **The file is found under the path it was put at.** -/
theorem find_put {name : String} (contents : ByteArray) (hparts : p.parts = parts ++ [name])
    (hmade : t.makeDirectories (Location.start p) parts = .ok (made, dir))
    (hlength : ¬ Path.maxLength < Text.byteSize p.text)
    (hobstacle : made.obstacle? dir name = none)
    (hplain : made.devices.get? (dir ++ [name]) = none) :
    (made.put (dir ++ [name]) contents).find p = .ok (.file contents) := by
  unfold obstacle? at hobstacle
  split at hobstacle
  · cases hobstacle
  rename_i hup
  split at hobstacle
  · cases hobstacle
  rename_i hname
  split at hobstacle
  · cases hobstacle
  rename_i hdirectory
  rw [find, if_neg hlength, hparts, follow_made hmade, follow, if_neg hup, if_neg hname]
  · simp [file?_put contents hplain]
  · intro l hl hnone
    -- the new file is no directory, so it is none of those on the way
    have hne : dir ++ [name] ≠ l := by
      rintro rfl
      exact hdirectory hl
    exact ⟨isDirectory_put contents _ hl, by rw [file?_put contents hplain, if_neg hne, hnone]⟩

/-! ## Writing a text -/

/-- The location that a path names lies in the last directory that is made for it. -/
theorem location_of_made {name : String} (hparts : p.parts = parts ++ [name])
    (hup : name ≠ "..") (hmade : t.makeDirectories (Location.start p) parts = .ok (made, dir)) :
    p.location = dir ++ [name] := by
  rw [Path.location, hparts, Location.walk_append, ← (makeDirectories_eq_ok hmade).2.2.2,
    Location.walk, if_neg hup]
  rfl

/-- **What writing a text does**: it fails with the files as they are, or comes to the
place that the path names and writes there. -/
theorem writeText_cases (t : FileTree) (p : Path) (text : String) :
    (∃ fault, (t.writeText p text).fault = some fault ∧ (t.writeText p text).output = "" ∧
        (t.writeText p text).files.files = t.files) ∨
      ∃ made parts dir name, p.parts = parts ++ [name] ∧ p.location = dir ++ [name] ∧
        t.makeDirectories (Location.start p) parts = .ok (made, dir) ∧
        ¬ Path.maxLength < Text.byteSize p.text ∧ made.obstacle? dir name = none ∧
        t.writeText p text = made.writeAt dir name text := by
  unfold writeText
  dsimp only
  split
  · exact .inl ⟨_, rfl, rfl, rfl⟩
  split
  · exact .inl ⟨_, rfl, rfl, rfl⟩
  split
  · exact .inl ⟨_, rfl, rfl, rfl⟩
  rename_i name hlast
  split
  · exact .inl ⟨_, rfl, rfl, rfl⟩
  rename_i made dir hmade
  split
  · exact .inl ⟨_, rfl, rfl, (makeDirectories_eq_ok hmade).1⟩
  split
  · exact .inl ⟨_, rfl, rfl, rfl⟩
  rename_i hlength
  split
  · exact .inl ⟨_, rfl, rfl, rfl⟩
  rename_i hobstacle
  have hparts : p.parts = p.parts.dropLast ++ [name] :=
    (List.dropLast_append_getLast? name hlast).symm
  have hup : name ≠ ".." := by
    rintro rfl
    simp [obstacle?] at hobstacle
  exact .inr ⟨made, p.parts.dropLast, dir, name, hparts, location_of_made hparts hup hmade, hmade,
    hlength, hobstacle, rfl⟩

/-- **A text that was written** is found under its path, and no other file has changed. -/
theorem writeText_eq_none (hplain : t.devices.get? p.location = none)
    (h : (t.writeText p text).fault = none) :
    ∃ contents, Utf8.encode? text = some contents ∧ (t.writeText p text).output = "" ∧
      (t.writeText p text).files.files = t.files.put p.location contents ∧
      (t.writeText p text).files.find p = .ok (.file contents) := by
  rcases writeText_cases t p text with ⟨fault, hfault, _⟩ | ⟨made, parts, dir, name, hparts,
    hlocation, hmade, hlength, hobstacle, hwrite⟩
  · rw [h] at hfault
    cases hfault
  · obtain ⟨hfiles, hdevices, _⟩ := makeDirectories_eq_ok hmade
    rw [hlocation] at hplain ⊢
    rw [← hdevices] at hplain
    rw [hwrite, writeAt, hplain] at h ⊢
    cases hcontents : Utf8.encode? text with
    | none =>
        rw [hcontents] at h
        cases h
    | some contents =>
        refine ⟨contents, rfl, rfl, ?_, find_put contents hparts hmade hlength hobstacle hplain⟩
        rw [← hfiles]
        rfl

/-- **A text that was not written** has left the files as they were, or keeps a half: then
the file is there and empty. -/
theorem writeText_eq_some (hplain : t.devices.get? p.location = none)
    (h : (t.writeText p text).fault = some fault) :
    (t.writeText p text).output = "" ∧ ((t.writeText p text).files.files = t.files ∨
      Utf8.encode? text = none ∧ fault = .halfCharacter ∧
        (t.writeText p text).files.files = t.files.put p.location ByteArray.empty) := by
  rcases writeText_cases t p text with ⟨_, _, houtput, hfiles⟩ | ⟨made, parts, dir, name, hparts,
    hlocation, hmade, _, _, hwrite⟩
  · exact ⟨houtput, .inl hfiles⟩
  · obtain ⟨hfiles, hdevices, _⟩ := makeDirectories_eq_ok hmade
    rw [hlocation] at hplain ⊢
    rw [← hdevices] at hplain
    rw [hwrite, writeAt, hplain] at h ⊢
    cases hcontents : Utf8.encode? text with
    | none =>
        rw [hcontents] at h
        cases h
        rw [← hfiles]
        exact ⟨rfl, .inr ⟨rfl, rfl, rfl⟩⟩
    | some contents =>
        rw [hcontents] at h
        cases h

/-- **What is written to a device** changes no file.  What comes out is nothing or what the
device shows. -/
theorem writeText_of_device {device : Device} (hdevice : t.devices.get? p.location = some device) :
    (t.writeText p text).files.files = t.files ∧
      ((t.writeText p text).output = "" ∨
        (t.writeText p text).output = (device.write text).1) := by
  rcases writeText_cases t p text with ⟨_, _, houtput, hfiles⟩ | ⟨made, parts, dir, name, hparts,
    hlocation, hmade, _, _, hwrite⟩
  · exact ⟨hfiles, .inl houtput⟩
  · obtain ⟨hfiles, hdevices, _⟩ := makeDirectories_eq_ok hmade
    rw [hlocation, ← hdevices] at hdevice
    rw [hwrite, writeAt, hdevice, ← hfiles]
    cases Utf8.encode? text with
    | none => exact ⟨rfl, .inl rfl⟩
    | some contents => exact ⟨rfl, .inr rfl⟩

end FileTree

end NodeWeave
