import Mathlib.Data.List.Nodup
import MessageCatalog.Config.Basic
import MessageCatalog.Proofs.Edit.Selection
import MessageCatalog.Proofs.Extraction.CheckedEdits

/-!
Extraction from a source in which the edits of an extraction have been made. Where the walk over it
meets the same sites, with the edits made in them, it gives the same ids and messages, if and only
if every message that has been written into a descriptor is its own canonical spelling. Of the text
with the edits made, a check tells whether it parses to such a source.
-/

namespace MessageCatalog.Extraction

open Script Descriptor

variable {t t' : Setting} {f f' g g' : Findings} {s s' : Scopes}

theorem handle_called {start : Nat} {callee value : Expr} {later : List Argument} {name : String}
    {span : Span} {inner : List Property} (called : t.called? s callee = some name)
    (object : unwrap value = .object span inner) :
    Visit.handle t f ⟨s, .call start callee (.plain value :: later)⟩ =
      extractProperties t ((calleeText? callee).getD name) (f.within s) inner := by
  rw [handle_call, called]
  simp only [extractCall, object]

theorem handle_again {v v' : Visit} (settings : SettingAlike t t')
    (corresponds : Corresponds t v v') (related : Related f f')
    (passed : (v.handle t f).failure = none) (stable : Stable t.validate (v.handle t f).edits) :
    (v'.handle t' f').failure = none ∧
      Related (v.handle t f).findings (v'.handle t' f').findings := by
  cases corresponds with
  | @element s s' start start' tag attributes attributes' scopes kept =>
      exact element_again settings scopes related kept passed start'
  | @other s s' start start' callee callee' arguments arguments' scopes same other =>
      have other' := (called?_alike settings scopes same).trans other
      rw [handle_call, handle_call, other, other']
      exact ⟨rfl, related⟩
  | @called s s' start start' callee callee' value value' later later' name span span' inner inner'
      scopes same called object object' replaced =>
      have called' := (called?_alike settings scopes same).trans called
      rw [handle_called called object] at passed stable ⊢
      rw [handle_called called' object']
      have commits := commits_of_passed passed
      obtain ⟨g', commits', related'⟩ := commits_again settings commits replaced related stable s'
      rw [properties_of_commits commits']
      exact ⟨rfl, related'⟩

theorem handle_edits {v : Visit} (passed : (v.handle t f).failure = none) :
    f.edits ⊆ (v.handle t f).edits := by
  obtain ⟨s, site⟩ := v
  cases site with
  | element start tag attributes =>
      obtain ⟨lost, edits⟩ := element_edits t f s start tag attributes
      change f.edits ⊆ (extractElement t (f.within s) start tag attributes).edits
      rw [edits]
      exact List.subset_append_left _ _
  | call start callee arguments =>
      rw [handle_call] at passed ⊢
      split at passed
      · rename_i name _
        rcases extractCall_cases t (f.within s) start callee name arguments with
          ⟨_, failure, ended⟩ | ⟨value, later, span, inner, rfl, _, ended⟩
        · rw [ended] at passed
          cases passed
        · rw [ended] at passed ⊢
          exact commits_edits (commits_of_passed passed)
      · exact List.Subset.refl _

theorem handles_edits {visits : List Visit} (handled : Handles t f visits g) :
    f.edits ⊆ g.edits := by
  induction handled with
  | done f => exact List.Subset.refl _
  | next passed _ ih => exact List.Subset.trans (handle_edits passed) ih

theorem handle_stable {v v' : Visit} (settings : SettingAlike t t')
    (corresponds : Corresponds t v v') (passed : (v.handle t f).failure = none)
    (passed' : (v'.handle t' f').failure = none) (range : Span) (id message : String)
    (member : .replaceDescriptor range id message ∈ (v.handle t f).findings.edits) :
    .replaceDescriptor range id message ∈ f.edits ∨
      ∃ range' canonical, t.validate (Text.trimmed message) = .ok canonical ∧
        .replaceDescriptor range' id canonical ∈ (v'.handle t' f').findings.edits := by
  cases corresponds with
  | @element s s' start start' tag attributes attributes' scopes kept =>
      obtain ⟨lost, edits⟩ := element_edits t f s start tag attributes
      change _ ∈ (extractElement t (f.within s) start tag attributes).edits at member
      rw [edits] at member
      rcases List.mem_append.mp member with old | new
      · exact .inl old
      · cases (names_removals {} lost range id message new).1
  | @other s s' start start' callee callee' arguments arguments' scopes same other =>
      rw [handle_call, other] at member
      exact .inl member
  | @called s s' start start' callee callee' value value' later later' name span span' inner inner'
      scopes same called object object' replaced =>
      have called' := (called?_alike settings scopes same).trans called
      rw [handle_called called object] at passed member
      rw [handle_called called' object'] at passed' ⊢
      exact commits_stable settings (commits_of_passed passed) replaced (commits_of_passed passed')
        range id message member

theorem handles_again {visits visits' : List Visit} (settings : SettingAlike t t')
    (handled : Handles t f visits g) (corresponds : List.Forall₂ (Corresponds t) visits visits')
    (related : Related f f') (stable : Stable t.validate g.edits) :
    ∃ g', Handles t' f' visits' g' ∧ Related g g' := by
  induction handled generalizing f' visits' with
  | done f =>
      cases corresponds
      exact ⟨f', .done f', related⟩
  | @next f g v rest passed later ih =>
      cases corresponds with
      | cons head tail =>
          have soFar : Stable t.validate (v.handle t f).edits :=
            fun range id message member => stable range id message (handles_edits later member)
          obtain ⟨passed', related'⟩ := handle_again settings head related passed soFar
          obtain ⟨g', handled', final⟩ := ih tail related' stable
          exact ⟨g', .next passed' handled', final⟩

theorem handles_stable {visits visits' : List Visit} (settings : SettingAlike t t')
    (handled : Handles t f visits g) (corresponds : List.Forall₂ (Corresponds t) visits visits')
    (handled' : Handles t' f' visits' g') (range : Span) (id message : String)
    (member : .replaceDescriptor range id message ∈ g.edits) :
    .replaceDescriptor range id message ∈ f.edits ∨
      ∃ range' canonical, t.validate (Text.trimmed message) = .ok canonical ∧
        .replaceDescriptor range' id canonical ∈ g'.edits := by
  induction handled generalizing f' visits' with
  | done f => exact .inl member
  | @next f g v rest passed later ih =>
      cases corresponds with
      | cons head tail =>
          cases handled' with
          | next passed' later' =>
              rcases ih tail later' member with old | again
              · rcases handle_stable settings head passed passed' range id message old with
                  older | ⟨range', canonical, outcome, again⟩
                · exact .inl older
                · exact .inr ⟨range', canonical, outcome, handles_edits later' again⟩
              · exact .inr again

def Findings.extracted (f : Findings) : Extracted :=
  ⟨f.store.entries, f.warnings, f.edits⟩

theorem extract_eq_ok_iff {options : Options} {validate : Message.Validator} {source : Source}
    {visits : List Visit} {last : Scopes} {found : Extracted}
    (walked : Walks (Setting.ofSource options validate source).entered .empty
      (nodesOf source.module) visits last) :
    extract options validate source = .ok found ↔
      ∃ g, Handles (.ofSource options validate source) (.start options) visits g ∧
        g.extracted = found := by
  have outcome := walk_outcome walked
  constructor
  · intro success
    unfold extract at success
    cases ending : (walk options validate source).failure with
    | some failure => simp [ending] at success
    | none =>
        rw [ending] at outcome
        simp only [ending, Except.ok.injEq] at success
        exact ⟨_, outcome.handles, success⟩
  · rintro ⟨g, handled, rfl⟩
    obtain ⟨passed, same⟩ := outcome.of_handles handled
    unfold extract
    simp only [passed]
    rw [← same]
    rfl

def Extracted.pairs (found : Extracted) : List (String × String) :=
  found.messages.map fun entry => (entry.id, entry.defaultMessage)

theorem pairs_undescribed (f : Findings) (related : Related f f') :
    f'.extracted.pairs = f.extracted.pairs := by
  simp [Extracted.pairs, Findings.extracted, related.store, Store.undescribed,
    Descriptor.undescribed]

theorem message_unique {validate : Message.Validator} {found : Extracted}
    (agrees : found.Agrees validate) {entry other : Descriptor} (member : entry ∈ found.messages)
    (member' : other ∈ found.messages) (same : entry.id = other.id) :
    entry.defaultMessage = other.defaultMessage := by
  rw [List.inj_on_of_nodup_map agrees.distinct member member' same]

theorem stable_of_pairs {options : Options} {validate : Message.Validator} {source edited : Source}
    {visits visits' : List Visit} {last' : Scopes} {g : Findings} {again : Extracted}
    (settings : SettingAlike (.ofSource options validate source) (.ofSource options validate edited))
    (corresponds : List.Forall₂ (Corresponds (.ofSource options validate source)) visits visits')
    (handled : Handles (.ofSource options validate source) (.start options) visits g)
    (walked' : Walks (Setting.ofSource options validate edited).entered .empty
      (nodesOf edited.module) visits' last')
    (success : extract options validate source = .ok g.extracted)
    (success' : extract options validate edited = .ok again)
    (same : again.pairs = g.extracted.pairs) : Stable validate g.extracted.edits := by
  intro range id message member
  obtain ⟨g', handled', rfl⟩ := (extract_eq_ok_iff walked').mp success'
  have agrees := (edits_agree options validate source).2 _ success
  have agrees' := (edits_agree options validate edited).2 _ success'
  rcases handles_stable settings handled corresponds handled' range id message member with
    old | ⟨range', canonical, outcome, member'⟩
  · cases old
  obtain ⟨entry, inMessages, sameId, sameMessage⟩ := agrees.rewritten range id message member
  obtain ⟨other, inAgain, otherId, otherMessage⟩ := agrees'.rewritten range' id canonical member'
  have kept : (id, message) ∈ g'.extracted.pairs := by
    rw [same, ← sameId, ← sameMessage]
    exact List.mem_map_of_mem inMessages
  obtain ⟨third, inAgain', pair⟩ := List.mem_map.mp kept
  obtain ⟨thirdId, thirdMessage⟩ := Prod.mk.inj pair
  have unique := message_unique agrees' inAgain inAgain' (otherId.trans thirdId.symm)
  rw [otherMessage, thirdMessage] at unique
  exact unique ▸ outcome

/-- From a source with the edits made, extraction gives the ids and messages that it gave before
exactly if each message that a descriptor has got is the canonical spelling of itself. So it does
from what the text with the edits made parses to, if that is checked to be such a source. -/
theorem extract_edited {options : Options} {validate : Message.Validator} {source : Source}
    {found : Extracted} (lenient : options.enforceDescriptions = false)
    (success : extract options validate source = .ok found) :
    (∀ edited, Edited options validate source edited →
      ((∃ again, extract options validate edited = .ok again ∧ again.pairs = found.pairs) ↔
        Stable validate found.edits)) ∧
    ∀ file, let text := Edit.apply (String.ofList source.text) found.edits
      (∃ edited, Source.parse file text = .ok edited ∧
        isEdited options validate source edited = true) →
      ((∃ edited again, Source.parse file text = .ok edited ∧
          extract options validate edited = .ok again ∧ again.pairs = found.pairs) ↔
        Stable validate found.edits) := by
  have general (edited : Source) (edits : Edited options validate source edited) :
      (∃ again, extract options validate edited = .ok again ∧ again.pairs = found.pairs) ↔
        Stable validate found.edits := by
    obtain ⟨imports, constants, visits, last, visits', last', walked, walked', corresponds⟩ := edits
    have settings : SettingAlike (.ofSource options validate source)
        (.ofSource options validate edited) := ⟨rfl, rfl, imports, constants⟩
    obtain ⟨g, handled, rfl⟩ := (extract_eq_ok_iff walked).mp success
    have related : Related (.start options) (.start options) := ⟨lenient, rfl⟩
    constructor
    · rintro ⟨again, success', same⟩
      exact stable_of_pairs settings corresponds handled walked' success success' same
    · intro stable
      obtain ⟨g', handled', related'⟩ := handles_again settings handled corresponds related stable
      exact ⟨g'.extracted, (extract_eq_ok_iff walked').mpr ⟨g', handled', rfl⟩,
        pairs_undescribed g related'⟩
  refine ⟨general, fun file => ?_⟩
  rintro text ⟨edited, parsed, checked⟩
  rw [← general edited (edited_of_check checked)]
  constructor
  · rintro ⟨edited', again, parsed', found⟩
    obtain rfl := Except.ok.inj (parsed.symm.trans parsed')
    exact ⟨again, found⟩
  · rintro ⟨again, found⟩
    exact ⟨edited, again, parsed, found⟩

def read (content : String) : Option Source :=
  let text := dropByteOrderMark content.toList
  (Module.parse .typesAndMarkup text).toOption.map fun module => ⟨"a", text, module⟩

theorem parse_of_read {content : String} {source : Source} (found : read content = some source) :
    Source.parse "a" content = .ok source := by
  have dialect : Dialect.ofPath "a" = .typesAndMarkup := by decide
  unfold read at found
  unfold Source.parse
  dsimp only at found ⊢
  rw [dialect]
  cases parsed : Module.parse .typesAndMarkup (dropByteOrderMark content.toList) with
  | error offset =>
      rw [parsed] at found
      cases found
  | ok module =>
      rw [parsed] at found
      cases found
      rfl

def gives (text : List Char) (messages : List Descriptor) (edits : List Edit) (source : Source) :
    Bool :=
  let p := walk ({} : Config).options Message.canonicalize source
  source.text == text && p.failure.isNone && p.store.entries == messages && p.edits == edits

theorem extract_of_gives {text : List Char} {messages : List Descriptor} {edits : List Edit}
    {source : Source} (given : gives text messages edits source = true) :
    source.text = text ∧
      ∃ found, extract ({} : Config).options Message.canonicalize source = .ok found ∧
        found.messages = messages ∧ found.edits = edits := by
  simp only [gives, Bool.and_eq_true, beq_iff_eq, Option.isNone_iff_eq_none] at given
  obtain ⟨⟨⟨same, passed⟩, entries⟩, asked⟩ := given
  refine ⟨same, (walk ({} : Config).options Message.canonicalize source).extracted, ?_, entries,
    asked⟩
  simp only [extract, passed]

def compares (content rewritten : String) (messages : List Descriptor) (edits : List Edit) : Bool :=
  match read content, read rewritten with
  | some source, some edited =>
      gives content.toList messages edits source &&
        isEdited ({} : Config).options Message.canonicalize source edited
  | _, _ => false

theorem edited_of_compares {content rewritten : String} {messages : List Descriptor}
    {edits : List Edit} (same : compares content rewritten messages edits = true) :
    ∃ source edited, Source.parse "a" content = .ok source ∧
      Source.parse "a" rewritten = .ok edited ∧
        gives content.toList messages edits source = true ∧
          isEdited ({} : Config).options Message.canonicalize source edited = true := by
  unfold compares at same
  split at same
  next source edited reads reads' =>
    obtain ⟨given, checked⟩ := Bool.and_eq_true_iff.mp same
    exact ⟨source, edited, parse_of_read reads, parse_of_read reads', given, checked⟩
  next => cases same

def described : String :=
  "import \x7b FormattedMessage as F, defineMessages \x7d from \"react-intl\";\n" ++
    "<F id=\"a\" description=\"d\" defaultMessage=\"A\" />;\ndefineMessages(\x7b b: " ++
    "\x7b id: \"b\", description: \"e\", defaultMessage: \"B\" \x7d \x7d);\n"

def undescribed : String :=
  "import \x7b FormattedMessage as F, defineMessages \x7d from \"react-intl\";\n" ++
    "<F id=\"a\" defaultMessage=\"A\" />;\ndefineMessages(\x7b b: " ++
    "\x7b \"id\": \"b\", \"defaultMessage\": \"B\" \x7d \x7d);\n"

theorem apply_described :
    Edit.apply (String.ofList described.toList)
      [.removeAttribute ⟨78, 93⟩, .replaceDescriptor ⟨137, 187⟩ "b" "B"] = undescribed := by
  rw [Edit.apply, String.toList_ofList, Edit.splices_of_precede (by decide +kernel)]
  decide +kernel

theorem extract_edited_greetings :
    ∃ source found edited again, Source.parse "a" described = .ok source ∧
      extract ({} : Config).options Message.canonicalize source = .ok found ∧
      Edit.apply (String.ofList source.text) found.edits = undescribed ∧
      Source.parse "a" undescribed = .ok edited ∧
      extract ({} : Config).options Message.canonicalize edited = .ok again ∧
      again.pairs = [("a", "A"), ("b", "B")] := by
  have compared : compares described undescribed [⟨"a", some "d", "A"⟩, ⟨"b", some "e", "B"⟩]
      [.removeAttribute ⟨78, 93⟩, .replaceDescriptor ⟨137, 187⟩ "b" "B"] = true := by
    decide +kernel
  obtain ⟨source, edited, parsed, parsedEdited, given, checked⟩ := edited_of_compares compared
  obtain ⟨text, found, success, messages, edits⟩ := extract_of_gives given
  have applied : Edit.apply (String.ofList source.text) found.edits = undescribed := by
    rw [text, edits, apply_described]
  have stable : Stable Message.canonicalize found.edits := by
    rw [edits]
    intro range id message member
    simp only [List.mem_cons, reduceCtorEq, Edit.replaceDescriptor.injEq, List.not_mem_nil,
      false_or, or_false] at member
    obtain ⟨rfl, rfl, rfl⟩ := member
    decide +kernel
  obtain ⟨edited', again, parsedAgain, success', same⟩ :=
    ((extract_edited rfl success).2 "a" ⟨edited, by rw [applied, parsedEdited], checked⟩).mpr stable
  rw [applied] at parsedAgain
  refine ⟨source, found, edited', again, parsed, success, applied, parsedAgain, success', ?_⟩
  rw [same, Extracted.pairs, messages]
  rfl

/-! ### Comments in front of a description -/

def commented : String :=
  "import \x7b FormattedMessage \x7d from \"react-intl\";\n" ++
    "<FormattedMessage id=\"a\" // b\n description=\"d\" defaultMessage=\"A\"\n/>;\n"

/-- The message has become part of the comment. -/
def swallowed : String :=
  "import \x7b FormattedMessage \x7d from \"react-intl\";\n" ++
    "<FormattedMessage id=\"a\" // b defaultMessage=\"A\"\n/>;\n"

theorem apply_commented :
    Edit.apply (String.ofList commented.toList) [.removeAttribute ⟨78, 93⟩] = swallowed := by
  rw [Edit.apply, Edit.splices_of_precede (List.pairwise_singleton ..)]
  decide +kernel

/-- A description behind a comment takes the end of the comment's line away with it, and so what
follows on its own line is lost. -/
theorem edits_lose_message :
    ¬∀ (config : Config) (file content : String) (source : Source) (found : Extracted),
      config.enforceDescriptions = false → Source.parse file content = .ok source →
        extract config.options Message.canonicalize source = .ok found →
          ∃ edited again,
            Source.parse file (Edit.apply (String.ofList source.text) found.edits) = .ok edited ∧
              extract config.options Message.canonicalize edited = .ok again ∧
                again.pairs = found.pairs := by
  intro extractable
  have first : (read commented).any (gives commented.toList [⟨"a", some "d", "A"⟩]
      [.removeAttribute ⟨78, 93⟩]) = true := by
    decide +kernel
  have second : (read swallowed).any (gives swallowed.toList [] []) = true := by
    decide +kernel
  obtain ⟨source, reads, given⟩ := (Option.any_eq_true ..).mp first
  obtain ⟨source', reads', given'⟩ := (Option.any_eq_true ..).mp second
  obtain ⟨text, found, success, messages, edits⟩ := extract_of_gives given
  obtain ⟨_, found', success₂, none, _⟩ := extract_of_gives given'
  obtain ⟨edited, again, parsed', success', same⟩ :=
    extractable {} "a" commented source found rfl (parse_of_read reads) success
  rw [text, edits, apply_commented, parse_of_read reads'] at parsed'
  cases parsed'
  rw [success₂] at success'
  cases success'
  rw [Extracted.pairs, Extracted.pairs, none, messages] at same
  cases same

end MessageCatalog.Extraction
