import MessageCatalog.Proofs.FileTree.Writing

/-!
What writing leaves alone. Directories are made where there is nothing, and a text is written to a
place with the last name of its path. So a file with another name stays as it is, and where it is.
-/

namespace MessageCatalog.FileTree

variable {t t' made written : FileTree} {place next around : Place} {path name : String}
  {before : List String}

/-- All nodes are kept, and those with some names stay as they are: at most directories are made
where there was nothing. -/
structure Spares (spared : String → Prop) (t t' : FileTree) : Prop extends t.Extends t' where
  same : ∀ around name, IsName name → spared name →
    t'.node? (around ++ [name]) = t.node? (around ++ [name]) ∨
      (t.node? (around ++ [name]) = none ∧ t'.node? (around ++ [name]) = some .directory)

variable {spared : String → Prop}

theorem Spares.refl (spared : String → Prop) (t : FileTree) : t.Spares spared t where
  working := rfl
  directory _ found := found
  present _ found := found
  same _ _ _ _ := .inl rfl

theorem Spares.trans {last : FileTree} (first : t.Spares spared t')
    (second : t'.Spares spared last) : t.Spares spared last where
  working := second.working.trans first.working
  directory place found := second.directory place (first.directory place found)
  present place found := second.present place (first.present place found)
  same around name named kept := by
    rcases first.same around name named kept with same | ⟨free, directory⟩
    · rw [← same]
      exact second.same around name named kept
    · exact .inr ⟨free, second.directory _ directory⟩

theorem node?_put_directory (t : FileTree) (place other : Place) :
    (t.put place .directory).node? other =
      if other = place then some .directory else t.node? other :=
  node?_put (fun _ => rfl) other

theorem extends_put_directory (t : FileTree) (place : Place) :
    t.Extends (t.put place .directory) := by
  refine ⟨put_working t place .directory, fun other found => ?_, fun other found => ?_⟩
  all_goals
    rw [node?_put_directory]
    split
    · rfl
    · exact found

theorem follow_blanks {blanks : List String} (blank : ∀ step ∈ blanks, step = "")
    (present : (t.node? place).isSome) :
    blanks.foldlM t.step place ≠ .error .notFound := by
  induction blanks with
  | nil => nofun
  | cons first rest ih =>
      obtain ⟨rfl, others⟩ := List.forall_mem_cons.mp blank
      obtain ⟨node, there⟩ := Option.isSome_iff_exists.mp present
      rw [List.foldlM_cons, step, there]
      cases node with
      | directory => exact ih others
      | file content => nofun

theorem free_of_locate {blanks : List String}
    (shape : Path.steps path = before ++ name :: blanks) (blank : ∀ step ∈ blanks, step = "")
    (named : IsName name) (reached : before.foldlM t.step (t.origin path) = .ok around)
    (directory : t.node? around = some .directory) (filled : path.isEmpty = false)
    (missing : t.locate path = .error .notFound) : t.node? (around ++ [name]) = none := by
  unfold locate at missing
  split at missing
  · cases missing
  · rw [filled, if_neg Bool.false_ne_true, shape, List.foldlM_append, reached] at missing
    change List.foldlM t.step around (name :: blanks) = _ at missing
    rw [List.foldlM_cons, step_of_name directory named] at missing
    split at missing
    · cases missing
    · split at missing
      · exact absurd missing (follow_blanks blank (Option.isSome_of_eq_some ‹_›))
      · assumption

theorem isEmpty_of_newPlace (found : t.newPlace path = .ok place) : path.isEmpty = false := by
  refine Bool.eq_false_iff.mpr fun empty => ?_
  obtain rfl := String.isEmpty_iff.mp empty
  cases found

theorem spares_makeDirectory (success : t.makeDirectory path = .ok made) :
    t.Spares spared made := by
  unfold makeDirectory at success
  split at success
  · cases success
  · rename_i missing
    cases created : t.newPlace path with
    | error e => simp [created, Except.map] at success
    | ok place =>
        rw [created] at success
        cases success
        obtain ⟨before, name, blanks, around, shape, blank, reached, directory, rfl⟩ :=
          newPlace_eq_ok created
        refine ⟨extends_put_directory t _, fun other called named _ => ?_⟩
        rw [node?_put_directory]
        split
        · rename_i same
          obtain ⟨rfl, rfl⟩ := List.append_singleton_inj.mp same
          exact .inr ⟨free_of_locate shape blank named reached directory
            (isEmpty_of_newPlace created) missing, rfl⟩
        · exact .inl rfl
  · cases success

theorem spares_makeDirectoriesWithin (spared : String → Prop) (t : FileTree) (path : String)
    (fuel : Nat) : t.Spares spared (t.makeDirectoriesWithin path fuel).1 := by
  induction fuel generalizing path with
  | zero => exact .refl spared t
  | succ fuel ih =>
      rw [makeDirectoriesWithin]
      split
      · exact .refl spared t
      · split
        · exact spares_makeDirectory ‹_›
        · split
          · exact .refl spared t
          · rename_i around _
            have outside := ih around
            rcases attempt : t.makeDirectoriesWithin around fuel with ⟨made, _ | e⟩
            all_goals rw [attempt] at outside
            · dsimp only
              split
              · exact outside.trans (spares_makeDirectory ‹_›)
              · split <;> exact outside
            · exact outside
        · split <;> exact .refl spared t

theorem spares_makeDirectories (spared : String → Prop) (t : FileTree) (path : String) :
    t.Spares spared (t.makeDirectories path).1 :=
  spares_makeDirectoriesWithin spared t path _

/-! ### Writing a text -/

theorem place_of_locate (shape : Path.steps path = before ++ [name]) (named : IsName name)
    (found : t.locate path = .ok place) : ∃ around, place = around ++ [name] := by
  obtain ⟨around, -, same⟩ := place_of_names shape (by simpa using named) found
  exact ⟨around, same⟩

theorem spares_writeText {content : String} (shape : Path.steps path = before ++ [name])
    (named : IsName name) (other : ¬spared name)
    (success : t.writeText path content = .ok written) : t.Spares spared written := by
  obtain ⟨around, -, noDirectory, rfl, -⟩ := writeText_eq_ok shape named success
  refine ⟨extends_put noDirectory, fun around' called _ kept => .inl ?_⟩
  rw [node?_put_of_free noDirectory, if_neg]
  intro same
  obtain ⟨-, rfl⟩ := List.append_singleton_inj.mp same
  exact other kept

theorem writeText_slash {content : String} {front : List Char}
    (shape : path.toList = front ++ ['/']) : t.writeText path content ≠ .ok written := by
  intro success
  unfold writeText at success
  split at success
  · rename_i place found
    obtain ⟨-, -, followed⟩ := locate_eq_ok_iff.mp found
    have steps : Path.steps path = (front.splitOn '/').map String.ofList ++ [""] := by
      rw [Path.steps, shape, List.splitOn_append_cons_self, List.map_append]
      rfl
    rw [steps] at followed
    obtain ⟨around, -, last⟩ := follow_append.mp followed
    change List.foldlM t.step around [""] = _ at last
    rw [List.foldlM_cons, step] at last
    split at last
    · rename_i directory
      cases last
      rw [directory] at success
      cases success
    · cases last
    · cases last
  · split at success
    · cases success
    · rw [shape, List.getLast?_concat] at success
      cases success
  · cases success

theorem Spares.readText (spares : t.Spares spared t') {content : String}
    (shape : Path.steps path = before ++ [name]) (named : IsName name) (kept : spared name)
    (read : t.readText path = .ok content) : t'.readText path = .ok content := by
  obtain ⟨place, found, file⟩ := readText_eq_ok_iff.mp read
  refine readText_eq_ok_iff.mpr ⟨place, spares.toExtends.locate found, ?_⟩
  obtain ⟨around, rfl⟩ := place_of_locate shape named found
  rcases spares.same around name named kept with same | ⟨free, -⟩
  · rwa [same]
  · rw [free] at file
    cases file

end MessageCatalog.FileTree
