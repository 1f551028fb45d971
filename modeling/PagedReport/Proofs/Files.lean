import PagedReport.Job

/-!
# Spellings of paths

A path may be spelled with empty names and dots that lead nowhere else.  Whatever a path is compared
with for its names leads to the same file.
-/

namespace PagedReport

/-- Spellings of one path do not lead to files of different content. -/
def Files.Consistent (files : Files) : Prop :=
  ∀ {p q : String} {x y : ByteArray}, FileTree.pathNames p = FileTree.pathNames q →
    files p = .ok x → files q = .ok y → x = y

namespace FileTree

/-! ## Names that lead somewhere -/

/-- The names of a path that lead somewhere else. -/
def leading (names : List String) : List String := names.filter fun n ↦ n != "" && n != "."

/-- A name in a directory that has others above it, or the root above which is nothing. -/
theorem walk_cons (entries : List (String × FileTree)) (parents : List FileTree) (name : String)
    (rest : List String) :
    walk (.directory entries :: parents) (name :: rest) =
      if name == "" || name == "." then walk (.directory entries :: parents) rest
      else if name == ".." then walk (if parents = [] then [.empty] else parents) rest
      else if 255 < name.utf8ByteSize then .error .nameTooLong
      else
        match entries.lookup name with
        | some next => walk (next :: .directory entries :: parents) rest
        | none => .error .notFound := by
  cases parents with
  | nil => rfl
  | cons p ps => rfl

theorem walk_leading {above : List FileTree} {names : List String} {t : FileTree}
    (h : walk above names = .ok t) : walk above (leading names) = .ok t := by
  -- names lead up and down, so this is about all directories at once
  induction names generalizing above with
  | nil => exact h
  | cons name rest ih =>
      match above with
      | [] => cases h
      | .file content :: parents => cases h
      | .directory entries :: parents =>
          rw [walk_cons] at h
          by_cases hhere : (name == "" || name == ".") = true
          · have hdrop : leading (name :: rest) = leading rest := by
              rw [Bool.or_eq_true, beq_iff_eq, beq_iff_eq] at hhere
              rcases hhere with rfl | rfl <;> simp [leading]
            rw [if_pos hhere] at h
            rw [hdrop]
            exact ih h
          · have hkeep : leading (name :: rest) = name :: leading rest :=
              List.filter_cons_of_pos (by simpa using hhere)
            rw [if_neg hhere] at h
            rw [hkeep, walk_cons, if_neg hhere]
            split at h
            · next hup => rw [if_pos hup]; exact ih h
            · next hup =>
                rw [if_neg hup]
                split at h
                · cases h
                · next hlength =>
                    rw [if_neg hlength]
                    split at h
                    · exact ih h
                    · cases h

theorem pathNames_inj {p q : String} (h : pathNames p = pathNames q) :
    isAbsolute p = isAbsolute q ∧ leading (names p) = leading (names q) := by
  obtain ⟨habsolute, hnames⟩ := Prod.mk.inj h
  refine ⟨habsolute, ?_⟩
  have hmarked : ∀ ns : List String,
      leading ((if ns.head? == some "." then ["."] else []) ++ leading ns) = leading ns := by
    intro ns
    split <;> simp [leading]
  rw [← hmarked (names p), ← hmarked (names q)]
  exact congrArg leading hnames

theorem find_leading {tree t : FileTree} {path : String} (h : tree.find path = .ok t) :
    walk [if isAbsolute path then .empty else tree] (leading (names path)) = .ok t := by
  unfold find at h
  split at h
  · cases h
  · split at h
    · cases h
    · split at h
      · cases h
      · exact walk_leading h

theorem read_ok {tree : FileTree} {path : String} {content : ByteArray}
    (h : tree.read path = .ok content) : tree.find path = .ok (.file content) := by
  unfold read at h
  split at h
  · next hfind => rw [hfind, Except.ok.inj h]
  · cases h
  · cases h

theorem read_consistent (tree : FileTree) : tree.read.Consistent := by
  intro p q x y hpq hp hq
  obtain ⟨habsolute, hnames⟩ := pathNames_inj hpq
  have hx := find_leading (read_ok hp)
  have hy := find_leading (read_ok hq)
  rw [habsolute, hnames] at hx
  exact FileTree.file.inj (Except.ok.inj (hx.symm.trans hy))

end FileTree

/-! ## Files of a job -/

namespace Job

theorem run_bind {α β : Type} (j : Job α) (f : α → Job β) (disk : Disk) :
    (j.bind f).run disk = (f (j.run disk).2).run (j.run disk).1 := by
  induction j generalizing disk with
  | done a => rfl
  | read path next ih => exact ih _ disk
  | write path document next ih => exact ih _ _

/-- What a job fetches is what the disk holds, or nothing. -/
theorem fetch_run (paths : List String) (disk : Disk) :
    ((fetch paths).run disk).1 = disk ∧
      ∀ path content, ((fetch paths).run disk).2 path = .ok content →
        disk.files.read path = .ok content := by
  induction paths with
  | nil => exact ⟨rfl, nofun⟩
  | cons p paths ih =>
      rw [fetch, run, run_bind]
      refine ⟨ih.1, fun path content h ↦ ?_⟩
      rw [run] at h
      dsimp only at h
      split at h
      · next hpath => rw [hpath]; exact h
      · exact ih.2 path content h

theorem fetch_consistent (paths : List String) (disk : Disk) :
    Files.Consistent ((fetch paths).run disk).2 := by
  intro p q x y hpq hp hq
  obtain ⟨-, hread⟩ := fetch_run paths disk
  exact disk.files.read_consistent hpq (hread p x hp) (hread q y hq)

end Job

end PagedReport
