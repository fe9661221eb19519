import Mathlib.Data.List.Forall2
import MessageCatalog.Proofs.Descriptor.Drafts

/-!
Drafts and stores without descriptions. What a store accepts with descriptions it accepts without
them as well, unless it enforces them. A draft depends on what its parts are worth, and not on where
they stand.
-/

namespace MessageCatalog

def Descriptor.undescribed (entry : Descriptor) : Descriptor :=
  { entry with description := none }

namespace Descriptor

open Message (bind_eq_ok_iff)

def Draft.undescribed (draft : Draft) : Draft :=
  { draft with description := none }

namespace Store

def undescribed (s : Store) : Store :=
  ⟨s.enforce, s.entries.map Descriptor.undescribed⟩

theorem get?_undescribed (s : Store) (id : String) :
    s.undescribed.get? id = (s.get? id).map Descriptor.undescribed := by
  rw [get?, get?, undescribed, List.find?_map]
  rfl

theorem insert_undescribed (s : Store) (entry : Descriptor) :
    (s.insert entry).undescribed = s.undescribed.insert entry.undescribed := by
  have again : s.undescribed.get? entry.undescribed.id =
      (s.get? entry.id).map Descriptor.undescribed := s.get?_undescribed entry.id
  unfold insert
  rw [again]
  cases s.get? entry.id with
  | some existing => rfl
  | none => simp [undescribed]

theorem conflicts_undescribed {s : Store} {draft : Draft} (agrees : ¬s.Conflicts draft) :
    ¬s.undescribed.Conflicts draft.undescribed := by
  rintro ⟨other, found, differs⟩
  rw [get?_undescribed] at found
  obtain ⟨existing, member, rfl⟩ := Option.map_eq_some_iff.mp found
  have present : s.get? (draft.id.getD "") = some existing := member
  have same : existing = draft.descriptor :=
    Classical.not_not.mp fun other => agrees ((conflicts_of_get? present).mpr other)
  rw [same] at differs
  exact differs.elim (fun description => description rfl) (fun message => message rfl)

theorem commit_undescribed {s next : Store} {draft : Draft} {location : Location}
    (lenient : s.enforce = false) (committed : s.commit draft location = .ok next)
    (location' : Location) :
    s.undescribed.commit draft.undescribed location' = .ok next.undescribed := by
  obtain ⟨complete, agrees, _, rfl⟩ := of_commit committed
  rw [insert_undescribed]
  rcases s.undescribed.commit_cases draft.undescribed location' with
    ⟨incomplete, _⟩ | ⟨_, conflict, _⟩ | ⟨_, _, missed, _⟩ | ⟨_, _, _, again⟩
  · exact absurd incomplete complete
  · exact absurd conflict (conflicts_undescribed agrees)
  · exact absurd (lenient.symm.trans missed.1) (by decide)
  · exact again

theorem enforce_commit {s next : Store} {draft : Draft} {location : Location}
    (committed : s.commit draft location = .ok next) : next.enforce = s.enforce := by
  obtain ⟨_, _, _, rfl⟩ := of_commit committed
  exact insert_enforce s _

end Store

/-- Parts that differ in their locations only. -/
structure PartAlike (part part' : Part) : Prop where
  name : part'.name? = part.name?
  value : part'.value? = part.value?
  unbraced : part'.unbraced = part.unbraced

def PairAlike (pair pair' : Part × Part) : Prop :=
  PartAlike pair.1 pair'.1 ∧ PartAlike pair.2 pair'.2

variable {fromMarkup : Bool} {validate : Message.Validator}

theorem text?_alike {part part' : Part} (alike : PartAlike part part') :
    part'.text? = part.text? := by
  rw [Part.text?, Part.text?, alike.value]

theorem key?_alike {part part' : Part} (alike : PartAlike part part') :
    part'.key? = part.key? := by
  rw [Part.key?, Part.key?, alike.name, text?_alike alike]

theorem addPair_alike {draft next : Draft} {pair pair' : Part × Part} (alike : PairAlike pair pair')
    (added : addPair fromMarkup validate draft pair = .ok next) :
    addPair fromMarkup validate draft pair' = .ok next := by
  rw [addPair_eq_ok_iff] at added ⊢
  unfold Gives Names Part.Unknown at *
  rwa [key?_alike alike.1, text?_alike alike.2]

theorem foldlM_alike {draft last : Draft} {pairs pairs' : List (Part × Part)}
    (alike : List.Forall₂ PairAlike pairs pairs')
    (built : pairs.foldlM (addPair fromMarkup validate) draft = .ok last) :
    pairs'.foldlM (addPair fromMarkup validate) draft = .ok last := by
  induction alike generalizing draft with
  | nil => exact built
  | cons head _ ih =>
      rw [List.foldlM_cons] at built ⊢
      obtain ⟨next, added, built⟩ := bind_eq_ok_iff.mp built
      exact bind_eq_ok_iff.mpr ⟨next, addPair_alike head added, ih built⟩

theorem build_alike {draft : Draft} {pairs pairs' : List (Part × Part)}
    (alike : List.Forall₂ PairAlike pairs pairs')
    (built : build fromMarkup validate pairs = .ok draft) :
    build fromMarkup validate pairs' = .ok draft :=
  foldlM_alike alike built

def IsDescription (pair : Part × Part) : Prop :=
  ∃ name, pair.1.resolveKey = .ok name ∧ Field.ofKey? name = some .description

theorem isDescription_iff_names {pair : Part × Part} :
    IsDescription pair ↔ Names pair .description := by
  unfold IsDescription Names
  rw [pair.1.resolveKey_eq]
  cases pair.1.key? with
  | none => simp
  | some name => simp [Field.ofKey?_eq_some_iff]

theorem addPair_description {draft next : Draft} {pair : Part × Part}
    (described : IsDescription pair) (added : addPair fromMarkup validate draft pair = .ok next) :
    next.undescribed = draft.undescribed := by
  have named := isDescription_iff_names.mp described
  rcases addPair_eq_ok_iff.mp added with ⟨field, value, gives, rfl⟩ | ⟨unknown, rfl⟩
  · obtain rfl := gives.1.unique named
    rfl
  · rfl

theorem addPair_undescribed {draft next : Draft} {pair : Part × Part}
    (other : ¬IsDescription pair) (added : addPair fromMarkup validate draft pair = .ok next) :
    addPair fromMarkup validate draft.undescribed pair = .ok next.undescribed := by
  rcases addPair_eq_ok_iff.mp added with ⟨field, value, gives, rfl⟩ | ⟨unknown, rfl⟩
  · rw [addPair_of_gives gives]
    cases field with
    | id | defaultMessage => rfl
    | description => exact absurd (isDescription_iff_names.mpr gives.1) other
  · exact addPair_of_unknown unknown next.undescribed

end Descriptor

end MessageCatalog
