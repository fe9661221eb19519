import Mathlib.Data.List.TakeDrop
import MessageCatalog.CommandLine.Extract
import MessageCatalog.Proofs.Build.Runs
import MessageCatalog.Proofs.FileTree.Sparing

/-!
Where edited sources go. The name of a source ends with one of the extensions that are scanned, and
its edited text is written under this name; so no catalog is written over.
-/

namespace MessageCatalog

namespace Path

theorem intercalate_concat (sep : List Char) (parts : List (List Char)) (last : List Char) :
    ∃ front, sep.intercalate (parts ++ [last]) = front ++ last := by
  induction parts with
  | nil => exact ⟨[], by simp⟩
  | cons first rest ih =>
      obtain ⟨front, joined⟩ := ih
      refine ⟨first ++ sep ++ front, ?_⟩
      rw [List.cons_append, List.intercalate_cons_of_ne_nil (by simp), joined]
      simp only [List.append_assoc]

theorem ofNames_toList {parts : List PathComponent} {name : String}
    (last : parts.getLast? = some (.name name)) :
    ∃ front, (ofNames parts).toList = front ++ name.toList := by
  obtain ⟨before, rfl⟩ := List.getLast?_eq_some_iff.mp last
  unfold ofNames
  rw [List.filterMap_append, String.toList_intercalate, List.map_append]
  exact intercalate_concat _ _ _

theorem join_empty (base : String) :
    join base "" = "" ∨ ∃ front, (join base "").toList = front ++ ['/'] := by
  unfold join
  split
  · exact .inl rfl
  · split
    · rename_i slash
      rw [beq_iff_eq] at slash
      obtain ⟨front, ends⟩ := List.getLast?_eq_some_iff.mp slash
      exact .inr ⟨front, by rw [String.append_empty, ends]⟩
    · exact .inr ⟨base.toList, by rw [String.append_empty, String.toList_append]; rfl⟩

theorem getLast?_of_fileName? {path name : String} (called : fileName? path = some name) :
    (components path).getLast? = some (.name name) := by
  unfold fileName? at called
  split at called
  · cases called
    assumption
  · cases called

theorem fileName?_of_extension? {path ext : String} (found : extension? path = some ext) :
    ∃ name front, fileName? path = some name ∧ name.toList = front ++ ext.toList := by
  unfold extension? at found
  cases called : fileName? path with
  | none =>
      rw [called] at found
      cases found
  | some name =>
      rw [called] at found
      simp only [bind, Option.bind, List.span_eq_takeWhile_dropWhile] at found
      have parts : name.toList.reverse.takeWhile (· != '.') ++
          name.toList.reverse.dropWhile (· != '.') = name.toList.reverse :=
        List.takeWhile_append_dropWhile
      have whole := congrArg List.reverse parts
      rw [List.reverse_append, List.reverse_reverse] at whole
      split at found
      · cases found
      · cases found
      · rename_i after behind _ _ split
        obtain ⟨rfl, rfl⟩ := Prod.mk.inj split
        cases found
        exact ⟨name, _, rfl, by rw [String.toList_ofList]; exact whole.symm⟩

end Path

namespace Scan

theorem extension_of_isScannable {path : String} (scannable : isScannable path = true) :
    ∃ name front, Path.fileName? path = some name ∧
      ∃ ext ∈ extensions, name.toList = front ++ ext.toList := by
  obtain ⟨-, known⟩ := Bool.and_eq_true_iff.mp scannable
  cases found : Path.extension? path with
  | none =>
      rw [found] at known
      cases known
  | some ext =>
      rw [found] at known
      obtain ⟨name, front, called, ends⟩ := Path.fileName?_of_extension? found
      exact ⟨name, front, called, ext, List.contains_iff_mem.mp known, ends⟩

theorem other_of_extension {ext : String} (known : ext ∈ extensions) (front : List Char) :
    FileTree.IsName (String.ofList (front ++ ext.toList)) ∧
      ∀ other, front ++ ext.toList ≠ other ++ Config.catalogExtension.toList := by
  have apart : ∀ ext ∈ extensions, ext.toList.length ≤ Config.catalogExtension.toList.length ∧
      ∀ text ∈ ["", ".", "..", Config.catalogExtension], ¬ext.toList <:+ text.toList := by
    decide
  obtain ⟨short, differ⟩ := apart ext known
  have ends : ext.toList <:+ front ++ ext.toList := List.suffix_append _ _
  have differs {text : String} (among : text ∈ ["", ".", ".."]) :
      String.ofList (front ++ ext.toList) ≠ text := by
    rintro rfl
    refine differ _ (List.mem_append_left [Config.catalogExtension] among) ?_
    rwa [String.toList_ofList]
  refine ⟨⟨differs (by decide), differs (by decide), differs (by decide)⟩, fun other same => ?_⟩
  rw [same] at ends
  exact differ Config.catalogExtension (by decide)
    (List.suffix_of_suffix_length_le ends (List.suffix_append _ _) short)

end Scan

namespace CommandLine

open FileTree (Spares)

variable {t last : FileTree} {outDir root file : String}

def IsCatalogName (name : String) : Prop :=
  ∃ front, name = String.ofList (front ++ Config.catalogExtension.toList)

theorem targetOf_toList (outDir root : String) {name : String}
    (called : Path.fileName? file = some name) :
    targetOf outDir root file = "" ∨
      (∃ front, (targetOf outDir root file).toList = front ++ ['/']) ∨
      ∃ front, (targetOf outDir root file).toList = front ++ name.toList := by
  have last := Path.getLast?_of_fileName? called
  have below : Path.componentsBelow root file = [] ∨
      (Path.componentsBelow root file).getLast? = some (.name name) := by
    unfold Path.componentsBelow
    split
    · rw [List.getLast?_drop]
      split
      · rename_i all
        exact .inl (List.drop_eq_nil_iff.mpr all)
      · exact .inr last
    · exact .inr last
  unfold targetOf
  rcases below with nothing | last
  · rw [nothing]
    exact (Path.join_empty outDir).imp_right .inl
  · obtain ⟨front, names⟩ := Path.ofNames_toList last
    obtain ⟨before, joined⟩ := join_toList outDir (Path.ofNames (Path.componentsBelow root file))
    exact .inr (.inr ⟨before ++ front, by rw [joined, names, List.append_assoc]⟩)

theorem writeText_empty (t written : FileTree) (content : String) :
    t.writeText "" content ≠ .ok written := by
  nofun

theorem spares_writeText_target {content : String} (scannable : Scan.isScannable file = true)
    (success : t.writeText (targetOf outDir root file) content = .ok last) :
    t.Spares IsCatalogName last := by
  obtain ⟨name, front, called, ext, known, ends⟩ := Scan.extension_of_isScannable scannable
  rcases targetOf_toList outDir root called with
    empty | ⟨before, slash⟩ | ⟨before, target⟩
  · rw [empty] at success
    exact absurd success (writeText_empty t last content)
  · exact absurd success (FileTree.writeText_slash slash)
  · rw [ends, ← List.append_assoc] at target
    have single : ∀ ext ∈ Scan.extensions, '/' ∉ ext.toList := by decide
    obtain ⟨steps, rest, shape⟩ := steps_of_toList target (single ext known)
    obtain ⟨named, other⟩ := Scan.other_of_extension known rest
    refine FileTree.spares_writeText shape named ?_ success
    rintro ⟨catalog, same⟩
    exact other catalog (String.ofList_injective same)

theorem writeEdited_eq_ok {o : Build.Product}
    (success : writeEdited outDir root t o = (last, none)) :
    ∃ made, (∀ spared, t.Spares spared made) ∧
      made.writeText (targetOf outDir root o.source.file) o.edited = .ok last := by
  unfold writeEdited at success
  dsimp only at success
  have around (spared : String → Prop) := FileTree.spares_makeDirectories spared t
    ((Path.parent? (targetOf outDir root o.source.file)).getD "")
  split at success
  · cases success
  · rename_i made directories
    rw [directories] at around
    split at success
    · cases success
      exact ⟨made, around, ‹_›⟩
    · cases success

theorem spares_writeEdited {o : Build.Product} (scannable : Scan.isScannable o.source.file = true)
    (success : writeEdited outDir root t o = (last, none)) : t.Spares IsCatalogName last := by
  obtain ⟨made, around, wrote⟩ := writeEdited_eq_ok success
  exact (around _).trans (spares_writeText_target scannable wrote)

-- how a source is written is of no matter here, and unfolding it takes long
seal writeEdited in
theorem writeAll_cons (outDir root : String) (t : FileTree) (first : Build.Product)
    (rest : List Build.Product) :
    writeAll outDir root t (first :: rest) =
      match writeEdited outDir root t first with
      | (next, some e) => (next, some e)
      | (next, none) => writeAll outDir root next rest :=
  rfl

theorem spares_writeAll {products : List Build.Product}
    (scannable : ∀ o ∈ products, Scan.isScannable o.source.file = true)
    (success : writeAll outDir root t products = (last, none)) : t.Spares IsCatalogName last := by
  induction products generalizing t with
  | nil =>
      cases success
      exact .refl _ _
  | cons first rest ih =>
      obtain ⟨here, others⟩ := List.forall_mem_cons.mp scannable
      rw [writeAll_cons] at success
      rcases wrote : writeEdited outDir root t first with ⟨next, _ | e⟩
      all_goals rw [wrote] at success
      · exact (spares_writeEdited here wrote).trans (ih others success)
      · cases success

end CommandLine

end MessageCatalog
