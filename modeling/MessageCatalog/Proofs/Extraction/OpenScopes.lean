import MessageCatalog.Proofs.Extraction.Shadowing

/-!
The open scopes during a walk. Whatever node is visited, and whether or not extraction fails below
it, behind the node as many scopes are open as in front of it: a scope that is entered is left
again. The scopes further out are the same ones, and the innermost may have got more names.
-/

namespace MessageCatalog.Extraction

open Script

def innermostNames (s : Scopes) : List String :=
  (s.opened.head?.getD []).map Prod.fst

/-- What a visit does to the scopes that are open in front of it: they grow, but are as many. -/
structure Keeps (s last : Scopes) : Prop extends Grows s last where
  depth : last.depth = s.depth
  names : innermostNames s ⊆ innermostNames last

variable {t : Setting} {s inside last : Scopes}

theorem Keeps.refl (s : Scopes) : Keeps s s :=
  ⟨.refl s, rfl, List.Subset.refl _⟩

theorem Keeps.trans (first : Keeps s inside) (second : Keeps inside last) : Keeps s last :=
  ⟨first.toGrows.trans second.toGrows, second.depth.trans first.depth,
    List.Subset.trans first.names second.names⟩

theorem keeps_of_eq (same : last = s) : Keeps s last :=
  same ▸ .refl s

theorem keeps_add (s : Scopes) (name : String) (init : Option Expr) :
    Keeps s (s.add name init) := by
  have grown := grows_add s name init
  obtain ⟨opened⟩ := s
  cases opened with
  | nil => exact .refl _
  | cons innermost outer => exact ⟨grown, rfl, List.subset_cons_self _ _⟩

theorem keeps_declareNames (s : Scopes) (names : List String) : Keeps s (s.declareNames names) := by
  induction names generalizing s with
  | nil => exact .refl s
  | cons name rest ih => exact (keeps_add s name none).trans (ih (s.declare name))

theorem Keeps.empty (kept : Keeps .empty last) : last = .empty := by
  obtain ⟨opened⟩ := last
  exact congrArg Scopes.mk (List.length_eq_zero_iff.mp kept.depth)

mutual

theorem keeps_step (step : Step) (p : Progress) : Keeps p.scopes (step.run t p).scopes := by
  cases step with
  | declare names =>
      rw [Step.run]
      split
      · exact .refl _
      · exact keeps_declareNames p.scopes names
  | constant name init =>
      rw [Step.run]
      split
      · exact .refl _
      · exact keeps_add p.scopes name (some init)
  | scope names inner =>
      rw [Step.run]
      split
      · exact .refl _
      · -- the scope closes even if a site below it has failed
        let opened := { p with scopes := p.scopes.enter.declareNames names }
        have inside := (keeps_declareNames p.scopes.enter names).trans (keeps_runSteps inner opened)
        exact keeps_of_eq inside.toGrows.exit_eq
  | element start tag attributes =>
      rw [Step.run]
      split
      · exact .refl _
      · exact keeps_of_eq (extractElement_scopes t p start tag attributes)
  | call start callee arguments inCallee inFirst inLater inType =>
      rw [Step.run]
      split
      · exact .refl _
      split
      · rename_i name _
        have handled := keeps_of_eq (extractCall_frames t p start callee name arguments).scopes
        exact handled.trans ((keeps_runSteps inCallee _).trans (keeps_runSteps inLater _))
      · have front := (keeps_runSteps inCallee p).trans (keeps_runSteps inFirst _)
        exact front.trans ((keeps_runSteps inLater _).trans (keeps_runSteps inType _))

theorem keeps_runSteps (steps : List Step) (p : Progress) :
    Keeps p.scopes (runSteps t p steps).scopes := by
  cases steps with
  | nil => exact .refl _
  | cons first rest =>
      rw [runSteps]
      exact (keeps_step first p).trans (keeps_runSteps rest _)

end

/-- Visiting a node, in any state and with or without a failure, ends at the depth it began at. The
scopes below the innermost one are the same, and the innermost declares the names that it did. At
the top of a module no scope is open behind a node, nor behind the whole module. -/
theorem visit_keeps_scopes (t : Setting) (p : Progress) (node : Node) :
    let last := (runSteps t p node.steps).scopes
    last.depth = p.scopes.depth ∧ last.opened.tail = p.scopes.opened.tail ∧
      innermostNames p.scopes ⊆ innermostNames last ∧
      (runSteps t { p with scopes := .empty } node.steps).scopes = .empty ∧
      ∀ options validate source, (walk options validate source).scopes = .empty := by
  intro last
  have kept : Keeps p.scopes last := keeps_runSteps node.steps p
  have atTop : Keeps .empty (runSteps t { p with scopes := .empty } node.steps).scopes :=
    keeps_runSteps node.steps { p with scopes := .empty }
  refine ⟨kept.depth, kept.outer, kept.names, atTop.empty, fun options validate source => ?_⟩
  have whole : Keeps .empty (walk options validate source).scopes :=
    keeps_runSteps (ofModule source.module) (.start options)
  exact whole.empty

end MessageCatalog.Extraction
