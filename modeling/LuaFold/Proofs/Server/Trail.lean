import LuaFold.Proofs.Reparse.OneByOne
import LuaFold.Proofs.Server.Reference
import LuaFold.Proofs.Server.Traffic

/-!
# Documents on the trail of texts

A table of texts is mirrored by documents if each text has an open document that trails it: the
text was submitted last for the document, and it is shown already or still on its way, in the
queue, with a worker or in a result.

A submission that is the newest of its document is not skipped, and its result is taken whenever
it arrives, since the document has taken none that is as new.  So workers may pick up submissions
and finish in any order, and when nothing is on its way the documents show their texts.
-/

namespace LuaFold.Server

section Mirrors

open Reparser (Applied)

variable {Document : Type} {sink : Sink Document} {Holds : Document → Snapshot → Prop}
  {texts : Texts} {state : Applied String Document} {traffic : Traffic}

/--
An open document trails a text: the text was submitted last, and it is shown or on its way.  Here
`last` is the number of its submission.
-/
structure Trails
    (sink : Sink Document)
    (state : Applied String Document)
    (traffic : Traffic)
    (uri : String)
    (text : Text)
    (known : DocumentState)
    (last : Nat)
    (document : Document) :
    Prop where
  stated : state.reparser.documents.get? uri = some known
  shown : state.views.get? uri = some document
  newest : state.reparser.newest.get? known.generation = some last
  given : last ≤ state.reparser.lastSequence
  limit : ∀ snapshot, traffic.Carries uri snapshot → snapshot.number ≤ last
  arrives : (known.applied = last ∧ sink.Shows document text) ∨
    (known.applied < last ∧ traffic.Brings ⟨uri, last, known.generation, text⟩)

/-- What is kept of documents, and what is on its way, lead to texts. -/
structure Mirrors
    (sink : Sink Document)
    (Holds : Document → Snapshot → Prop)
    (texts : Texts)
    (state : Applied String Document)
    (traffic : Traffic) :
    Prop where
  orderly : traffic.Orderly state.reparser.lastSequence
  held : ∀ uri document, state.views.get? uri = some document →
    ∃ snapshot, Holds document snapshot ∧
      snapshot.number ≤ state.reparser.lastSequence ∧
      ∀ other second, traffic.Carries other second →
        snapshot.number = second.number → snapshot.text = second.text
  bounded : ∀ uri known, state.reparser.documents.get? uri = some known →
    known.generation ≤ state.reparser.lastSequence ∧
      known.applied ≤ state.reparser.lastSequence
  distinct : ∀ uri other known second,
    state.reparser.documents.get? uri = some known →
      state.reparser.documents.get? other = some second →
        known.generation = second.generation → uri = other
  closed : ∀ uri, texts uri = none → state.views.get? uri = none
  opened : ∀ uri text, texts uri = some text →
    ∃ known last document, Trails sink state traffic uri text known last document

theorem mirrors_new
    (coalesce : Bool) :
    Mirrors sink Holds (fun _ => none) ⟨.new coalesce, .empty⟩ .none := by
  refine ⟨Traffic.orderly_none _, ?_, ?_, ?_, ?_, ?_⟩
  · intro uri document shown
    cases shown
  · intro uri known stated
    cases stated
  · intro uri other known second stated
    cases stated
  · intro uri _
    rfl
  · intro uri text listed
    cases listed

/-- A document is open just when it has a text. -/
theorem Mirrors.isSome_views
    (mirrors : Mirrors sink Holds texts state traffic)
    (uri : String) :
    (state.views.get? uri).isSome = (texts uri).isSome := by
  cases listed : texts uri with
  | none =>
      rw [mirrors.closed uri listed]
      rfl
  | some text =>
      obtain ⟨known, last, document, trails⟩ := mirrors.opened uri text listed
      rw [trails.shown]
      rfl

/-- When nothing is on its way, an open document shows its text. -/
theorem Mirrors.shows
    (mirrors : Mirrors sink Holds texts state .none)
    {uri : String}
    {text : Text}
    (listed : texts uri = some text) :
    ∃ document, state.views.get? uri = some document ∧ sink.Shows document text := by
  obtain ⟨known, last, document, trails⟩ := mirrors.opened uri text listed
  refine ⟨document, trails.shown, ?_⟩
  rcases trails.arrives with ⟨_, shows⟩ | ⟨_, brings⟩
  · exact shows
  · rcases brings with queued | running | arrived
    · cases queued
    · cases running
    · cases arrived

/-! ## Workers -/

/-- Workers leave documents and their states alone, and move on what is on its way. -/
theorem Mirrors.move
    (mirrors : Mirrors sink Holds texts state traffic)
    {other : Traffic}
    (orderly : other.Orderly state.reparser.lastSequence)
    (carried : ∀ uri snapshot, other.Carries uri snapshot → traffic.Carries uri snapshot)
    (brought : ∀ uri text known last document,
      Trails sink state traffic uri text known last document →
        known.applied < last →
          traffic.Brings ⟨uri, last, known.generation, text⟩ →
            other.Brings ⟨uri, last, known.generation, text⟩) :
    Mirrors sink Holds texts state other := by
  refine ⟨orderly, ?_, mirrors.bounded, mirrors.distinct, mirrors.closed, ?_⟩
  · intro uri document shown
    obtain ⟨snapshot, holds, given, single⟩ := mirrors.held uri document shown
    exact ⟨snapshot, holds, given, fun uri' second carries =>
      single uri' second (carried uri' second carries)⟩
  · intro uri text listed
    obtain ⟨known, last, document, trails⟩ := mirrors.opened uri text listed
    refine ⟨known, last, document, trails.stated, trails.shown, trails.newest, trails.given,
      fun snapshot carries => trails.limit snapshot (carried uri snapshot carries), ?_⟩
    rcases trails.arrives with done | ⟨behind, brings⟩
    · exact Or.inl done
    · exact Or.inr ⟨behind, brought uri text known last document trails behind brings⟩

/-- The newest submission of a document is not skipped. -/
theorem Mirrors.start
    (mirrors : Mirrors sink Holds texts state traffic)
    {submission : Submission String}
    (queued : submission ∈ traffic.queue) :
    Mirrors sink Holds texts state
      (traffic.start submission (state.reparser.skips submission)) := by
  refine mirrors.move (mirrors.orderly.start queued _)
    (fun _ _ => Traffic.carries_of_start queued) ?_
  intro uri text known last document trails _ brings
  refine brings.start mirrors.orderly queued fun picked => ?_
  subst picked
  simp [Reparser.skips, Reparser.superseded, trails.newest]

theorem Mirrors.send
    (mirrors : Mirrors sink Holds texts state traffic)
    {cycle : Submission String × Bool}
    (running : cycle ∈ traffic.running) :
    Mirrors sink Holds texts state (traffic.send cycle) :=
  mirrors.move (mirrors.orderly.send running) (fun _ _ => Traffic.carries_of_send running)
    fun _ _ _ _ _ _ _ brings => brings.send mirrors.orderly running

/-! ## Batches -/

/-- The result that is left for a document is that of its newest submission. -/
theorem Mirrors.thin
    (mirrors : Mirrors sink Holds texts state traffic) :
    Mirrors sink Holds texts state
      (traffic.awaiting (Reparser.newestUpdates traffic.arrived).values) := by
  have among : ∀ update ∈ (Reparser.newestUpdates traffic.arrived).values,
      update ∈ traffic.arrived :=
    fun update member => Reparser.mem_of_mem_newestUpdates member
  refine mirrors.move (mirrors.orderly.awaiting among)
    (fun _ _ => Traffic.carries_of_awaiting among) ?_
  intro uri text known last document trails _ brings
  rcases brings with queued | running | arrived
  · exact .queued queued
  · exact .running running
  · refine .arrived (Reparser.mem_values_newestUpdates.mpr ?_)
    have newest := Reparser.newest_newestUpdates traffic.arrived
    obtain ⟨kept, keeps, above⟩ := newest.greatest _ arrived
    obtain ⟨listed, here⟩ := newest.found _ _ keeps
    have carried := Traffic.Carries.arrived listed
    rw [here] at carried
    have number : kept.sequence = last := Nat.le_antisymm (trails.limit _ carried) above
    have single := mirrors.orderly.single _ _ _ _ carried (.arrived arrived) number
    have regions := mirrors.orderly.genuine kept listed
    have same : kept = Submission.update ⟨uri, last, known.generation, text⟩ false := by
      obtain ⟨keptUri, keptSequence, keptText, keptRegions⟩ := kept
      obtain rfl : keptUri = uri := here
      obtain rfl : keptSequence = last := number
      obtain rfl : keptText = text := single.2
      obtain rfl : keptRegions = foldRegions keptText := regions
      rfl
    rw [keeps, same]

section Take

variable {update : Update String} {updates : List (Update String)} {known : DocumentState}
  {document : Document}

/-- A document takes a result. -/
def taken
    (sink : Sink Document)
    (state : Applied String Document)
    (update : Update String)
    (known : DocumentState)
    (document : Document) :
    Applied String Document :=
  ⟨{ state.reparser with
      documents := state.reparser.documents.set update.document
        { known with applied := update.sequence } },
    state.views.set update.document (sink.refresh document update)⟩

theorem applyWith_of_newer
    (refresh : Document → Update String → Document)
    (stated : state.reparser.documents.get? update.document = some known)
    (shown : state.views.get? update.document = some document)
    (newer : known.applied < update.sequence) :
    (state.applyWith refresh update).2 = true := by
  rw [Applied.applyWith, stated]
  dsimp only
  rw [if_neg (Nat.not_le_of_lt newer), shown]

theorem carries_rest
    {uri : String}
    {snapshot : Snapshot}
    (carries : (traffic.awaiting updates).Carries uri snapshot) :
    (traffic.awaiting (update :: updates)).Carries uri snapshot := by
  rcases carries with queued | running | arrived
  · exact .queued queued
  · exact .running running
  · exact .arrived (List.mem_cons_of_mem _ arrived)

theorem carries_first :
    (traffic.awaiting (update :: updates)).Carries update.document
      ⟨update.sequence, update.text⟩ :=
  .arrived List.mem_cons_self

theorem orderly_rest
    {last : Nat}
    (orderly : (traffic.awaiting (update :: updates)).Orderly last) :
    (traffic.awaiting updates).Orderly last :=
  orderly.lessen (fun _ _ => carries_rest) (List.Sublist.refl _) orderly.sound
    fun other listed => orderly.genuine other (List.mem_cons_of_mem _ listed)

/-- A result that is not that of a submission may be taken away from it. -/
theorem brings_rest
    {submission : Submission String}
    (brings : (traffic.awaiting (update :: updates)).Brings submission)
    (other : submission.document = update.document → submission.sequence ≠ update.sequence) :
    (traffic.awaiting updates).Brings submission := by
  rcases brings with queued | running | arrived
  · exact .queued queued
  · exact .running running
  · rcases List.mem_cons.mp arrived with same | later
    · exact absurd (congrArg Update.sequence same) (other (congrArg Update.document same))
    · exact .arrived later

/-- The document that takes a result still trails its text. -/
theorem Trails.take
    {text : Text}
    {last : Nat}
    (trails : Trails sink state (traffic.awaiting (update :: updates)) update.document text known
      last document)
    (orderly : (traffic.awaiting (update :: updates)).Orderly state.reparser.lastSequence)
    (newer : known.applied < update.sequence)
    (shows : sink.Shows (sink.refresh document update) update.text) :
    Trails sink (taken sink state update known document) (traffic.awaiting updates)
      update.document text { known with applied := update.sequence } last
      (sink.refresh document update) := by
  have below : update.sequence ≤ last := trails.limit _ carries_first
  have brings : (traffic.awaiting (update :: updates)).Brings
      ⟨update.document, last, known.generation, text⟩ := by
    rcases trails.arrives with ⟨done, _⟩ | ⟨_, brings⟩
    · omega
    · exact brings
  refine ⟨Table.get?_set_self _ _ _, Table.get?_set_self _ _ _, trails.newest, trails.given,
    fun snapshot carries => trails.limit snapshot (carries_rest carries), ?_⟩
  by_cases newest : update.sequence = last
  · have same : update.text = text :=
      (orderly.single _ _ _ _ carries_first brings.carries newest).2
    rw [same] at shows
    exact Or.inl ⟨newest, shows⟩
  · exact Or.inr ⟨Nat.lt_of_le_of_ne below newest,
      brings_rest brings fun _ number => newest number.symm⟩

/-- A result of one document is nothing to another. -/
theorem Trails.pass
    {uri : String}
    {text : Text}
    {before : DocumentState}
    {last : Nat}
    {view : Document}
    (trails : Trails sink state (traffic.awaiting (update :: updates)) uri text before last view)
    (apart : update.document ≠ uri) :
    Trails sink (taken sink state update known document) (traffic.awaiting updates) uri text
      before last view := by
  refine ⟨(Table.get?_set_of_ne _ apart _).trans trails.stated,
    (Table.get?_set_of_ne _ apart _).trans trails.shown, trails.newest, trails.given,
    fun snapshot carries => trails.limit snapshot (carries_rest carries), ?_⟩
  rcases trails.arrives with done | ⟨behind, brings⟩
  · exact Or.inl done
  · exact Or.inr ⟨behind, brings_rest brings fun here => absurd here.symm apart⟩

/-- A document that takes a result keeps its generation. -/
theorem exists_get?_taken
    (stated : state.reparser.documents.get? update.document = some known)
    {uri : String}
    {second : DocumentState}
    (found : (taken sink state update known document).reparser.documents.get? uri =
      some second) :
    ∃ first, state.reparser.documents.get? uri = some first ∧
      second.generation = first.generation ∧
      (second.applied = first.applied ∨ second.applied = update.sequence) := by
  simp only [taken, Table.get?_set] at found
  split at found
  · next here =>
    cases found
    exact ⟨known, here ▸ stated, rfl, Or.inr rfl⟩
  · exact ⟨second, found, rfl, Or.inl rfl⟩

/-- A document that takes a later result leads to the same texts. -/
theorem Mirrors.taken
    (keeps : sink.Keeps Holds)
    (mirrors : Mirrors sink Holds texts state (traffic.awaiting (update :: updates)))
    (stated : state.reparser.documents.get? update.document = some known)
    (shown : state.views.get? update.document = some document)
    (newer : known.applied < update.sequence) :
    Mirrors sink Holds texts (Server.taken sink state update known document)
      (traffic.awaiting updates) := by
  have given : update.sequence ≤ state.reparser.lastSequence :=
    mirrors.orderly.given _ _ carries_first
  obtain ⟨snapshot, holds, _, single⟩ := mirrors.held update.document document shown
  obtain ⟨holdsNew, showsNew⟩ := keeps.refreshed document snapshot update holds
    (single _ _ carries_first) (mirrors.orderly.genuine update List.mem_cons_self)
  refine ⟨orderly_rest mirrors.orderly, ?_, ?_, ?_, ?_, ?_⟩
  · intro uri other shownOther
    simp only [Server.taken, Table.get?_set] at shownOther
    split at shownOther
    · cases shownOther
      exact ⟨_, holdsNew, given, fun uri' second carries number =>
        (mirrors.orderly.single _ _ _ _ carries_first (carries_rest carries) number).2⟩
    · obtain ⟨earlier, holdsEarlier, givenEarlier, singleEarlier⟩ :=
        mirrors.held uri other shownOther
      exact ⟨earlier, holdsEarlier, givenEarlier, fun uri' second carries =>
        singleEarlier uri' second (carries_rest carries)⟩
  · intro uri second found
    obtain ⟨first, statedFirst, generation, applied⟩ := exists_get?_taken stated found
    have bounds := mirrors.bounded uri first statedFirst
    refine ⟨generation.trans_le bounds.1, ?_⟩
    rcases applied with same | new
    · exact same.trans_le bounds.2
    · exact new.trans_le given
  · intro uri other first second foundFirst foundSecond same
    obtain ⟨earlier, statedEarlier, generation, _⟩ := exists_get?_taken stated foundFirst
    obtain ⟨later, statedLater, generation', _⟩ := exists_get?_taken stated foundSecond
    exact mirrors.distinct uri other earlier later statedEarlier statedLater
      (generation.symm.trans (same.trans generation'))
  · intro uri closed
    have absent := mirrors.closed uri closed
    refine (Table.get?_set_of_ne _ ?_ _).trans absent
    rintro rfl
    rw [shown] at absent
    cases absent
  · intro uri text listed
    obtain ⟨before, last, view, trails⟩ := mirrors.opened uri text listed
    by_cases here : update.document = uri
    · subst here
      obtain rfl : known = before := Option.some.inj (stated.symm.trans trails.stated)
      obtain rfl : document = view := Option.some.inj (shown.symm.trans trails.shown)
      exact ⟨_, last, _, trails.take mirrors.orderly newer showsNew⟩
    · exact ⟨before, last, view, trails.pass here⟩

/-- A result is taken, or it was not that of the newest submission. -/
theorem Mirrors.take
    (keeps : sink.Keeps Holds)
    (mirrors : Mirrors sink Holds texts state (traffic.awaiting (update :: updates))) :
    Mirrors sink Holds texts (state.applyWith sink.refresh update).1
      (traffic.awaiting updates) := by
  rcases Applied.applyWith_cases sink.refresh state update with
    ⟨known, document, stated, shown, newer, same⟩ | same
  · rw [same]
    exact mirrors.taken keeps stated shown newer
  · rw [same]
    refine mirrors.move (orderly_rest mirrors.orderly) (fun _ _ => carries_rest) ?_
    intro uri text known last document trails behind brings
    refine brings_rest brings ?_
    rintro rfl rfl
    have taken := applyWith_of_newer sink.refresh trails.stated trails.shown behind
    rw [same] at taken
    cases taken

end Take

theorem Mirrors.applyEach
    (keeps : sink.Keeps Holds)
    {updates : List (Update String)}
    (mirrors : Mirrors sink Holds texts state (traffic.awaiting updates)) :
    Mirrors sink Holds texts (state.applyEach sink.refresh updates) (traffic.awaiting []) := by
  induction updates generalizing state with
  | nil => exact mirrors
  | cons update updates ih => exact ih (mirrors.take keeps)

/-! ## Changes of the open documents -/

section Submit

variable {uri : String} {text : Text} {document : Document} {views : Table String Document}

/-- The state under which a text is submitted: that of its document, or a new one. -/
theorem stateFor_cases
    (reparser : Reparser String)
    (uri : String) :
    (∃ known, reparser.documents.get? uri = some known ∧ reparser.stateFor uri = known) ∨
      (reparser.documents.get? uri = none ∧
        reparser.stateFor uri = ⟨reparser.nextSequence, reparser.lastSequence⟩) := by
  rw [Reparser.stateFor]
  cases stated : reparser.documents.get? uri with
  | none => exact Or.inr ⟨rfl, rfl⟩
  | some known => exact Or.inl ⟨known, rfl, rfl⟩

theorem Mirrors.bounded_stateFor
    (mirrors : Mirrors sink Holds texts state traffic)
    (uri : String) :
    (state.reparser.stateFor uri).generation ≤ state.reparser.nextSequence ∧
      (state.reparser.stateFor uri).applied ≤ state.reparser.lastSequence := by
  rcases stateFor_cases state.reparser uri with ⟨known, stated, same⟩ | ⟨_, same⟩
  · rw [same]
    have bounds := mirrors.bounded uri known stated
    exact ⟨Nat.le_succ_of_le bounds.1, bounds.2⟩
  · rw [same]
    exact ⟨Nat.le_refl _, Nat.le_refl _⟩

/-- No other document has the generation under which a text is submitted. -/
theorem Mirrors.generation_stateFor
    (mirrors : Mirrors sink Holds texts state traffic)
    {other : String}
    {second : DocumentState}
    (stated : state.reparser.documents.get? other = some second)
    (apart : uri ≠ other) :
    (state.reparser.stateFor uri).generation ≠ second.generation := by
  rcases stateFor_cases state.reparser uri with ⟨known, statedHere, same⟩ | ⟨_, same⟩
  · rw [same]
    intro generations
    exact apart (mirrors.distinct uri other known second statedHere stated generations)
  · rw [same]
    have given := (mirrors.bounded other second stated).1
    exact Nat.ne_of_gt (Nat.lt_succ_of_le given)

/-- A text that is submitted for an open document is the last one from then on. -/
theorem Mirrors.submit
    (mirrors : Mirrors sink Holds texts state traffic)
    (shown : ∀ other, views.get? other =
      if uri = other then some document else state.views.get? other)
    (held : ∃ snapshot, Holds document snapshot ∧
      snapshot.number ≤ state.reparser.nextSequence ∧
      (snapshot.number = state.reparser.nextSequence → snapshot.text = text) ∧
      ∀ other second, traffic.Carries other second →
        snapshot.number = second.number → snapshot.text = second.text) :
    Mirrors sink Holds (Function.update texts uri (some text))
      ⟨state.reparser.schedule uri text, views⟩
      (traffic.submit ⟨uri, state.reparser.nextSequence,
        (state.reparser.stateFor uri).generation, text⟩) := by
  have behind := (mirrors.bounded_stateFor uri).2
  refine ⟨mirrors.orderly.submit rfl, ?_, ?_, ?_, ?_, ?_⟩
  · intro other view shownOther
    rw [shown] at shownOther
    split at shownOther
    · cases shownOther
      obtain ⟨snapshot, holds, given, fresh, single⟩ := held
      refine ⟨snapshot, holds, given, fun uri' second carries number => ?_⟩
      rcases Traffic.carries_of_submit carries with earlier | ⟨_, rfl⟩
      · exact single uri' second earlier number
      · exact fresh number
    · obtain ⟨snapshot, holds, given, single⟩ := mirrors.held other view shownOther
      refine ⟨snapshot, holds, Nat.le_succ_of_le given, fun uri' second carries number => ?_⟩
      rcases Traffic.carries_of_submit carries with earlier | ⟨_, rfl⟩
      · exact single uri' second earlier number
      · exact absurd number (Nat.ne_of_lt (Nat.lt_succ_of_le given))
  · intro other second found
    simp only [Reparser.schedule, Table.get?_set] at found
    split at found
    · cases found
      exact ⟨(mirrors.bounded_stateFor uri).1, Nat.le_succ_of_le behind⟩
    · have bounds := mirrors.bounded other second found
      exact ⟨Nat.le_succ_of_le bounds.1, Nat.le_succ_of_le bounds.2⟩
  · intro first other known second foundFirst foundSecond
    simp only [Reparser.schedule, Table.get?_set] at foundFirst foundSecond
    split at foundFirst
    · next sameFirst =>
      cases foundFirst
      split at foundSecond
      · next sameSecond =>
        intro _
        exact sameFirst.symm.trans sameSecond
      · next apart =>
        intro generations
        exact absurd generations (mirrors.generation_stateFor foundSecond apart)
    · next apart =>
      split at foundSecond
      · cases foundSecond
        intro generations
        exact absurd generations.symm (mirrors.generation_stateFor foundFirst apart)
      · exact mirrors.distinct first other known second foundFirst foundSecond
  · intro other closed
    have apart : uri ≠ other := by
      rintro rfl
      rw [Function.update_self] at closed
      cases closed
    rw [Function.update_of_ne (Ne.symm apart)] at closed
    rw [shown, if_neg apart]
    exact mirrors.closed other closed
  · intro other last listed
    by_cases here : uri = other
    · subst here
      rw [Function.update_self] at listed
      cases listed
      refine ⟨state.reparser.stateFor uri, state.reparser.nextSequence, document,
        Table.get?_set_self _ _ _, ?_, Table.get?_set_self _ _ _, Nat.le_refl _, ?_,
        Or.inr ⟨Nat.lt_succ_of_le behind, .queued ?_⟩⟩
      · rw [shown, if_pos rfl]
      · intro snapshot carries
        rcases Traffic.carries_of_submit carries with earlier | ⟨_, rfl⟩
        · exact Nat.le_succ_of_le (mirrors.orderly.given _ _ earlier)
        · exact Nat.le_refl _
      · exact List.mem_append_right _ (List.mem_singleton.mpr rfl)
    · rw [Function.update_of_ne (Ne.symm here)] at listed
      obtain ⟨known, number, view, trails⟩ := mirrors.opened other last listed
      refine ⟨known, number, view, ?_, ?_, ?_, Nat.le_succ_of_le trails.given, ?_, ?_⟩
      · exact (Table.get?_set_of_ne _ here _).trans trails.stated
      · rw [shown, if_neg here]
        exact trails.shown
      · exact (Table.get?_set_of_ne _ (mirrors.generation_stateFor trails.stated here) _).trans
          trails.newest
      · intro snapshot carries
        rcases Traffic.carries_of_submit carries with earlier | ⟨same, _⟩
        · exact trails.limit snapshot earlier
        · exact absurd same.symm here
      · rcases trails.arrives with done | ⟨later, brings⟩
        · exact Or.inl done
        · exact Or.inr ⟨later, brings.submit _⟩

/-- A document that is closed leaves what is on its way alone. -/
theorem Mirrors.close
    (mirrors : Mirrors sink Holds texts state traffic)
    (uri : String) :
    Mirrors sink Holds (Function.update texts uri none)
      ⟨state.reparser.forget uri, state.views.remove uri⟩ traffic := by
  refine ⟨mirrors.orderly, ?_, ?_, ?_, ?_, ?_⟩
  · intro other view shownOther
    rw [Table.get?_remove] at shownOther
    split at shownOther
    · cases shownOther
    · exact mirrors.held other view shownOther
  · intro other second found
    simp only [Reparser.forget, Table.get?_remove] at found
    split at found
    · cases found
    · exact mirrors.bounded other second found
  · intro first other known second foundFirst foundSecond
    simp only [Reparser.forget, Table.get?_remove] at foundFirst foundSecond
    split at foundFirst
    · cases foundFirst
    · split at foundSecond
      · cases foundSecond
      · exact mirrors.distinct first other known second foundFirst foundSecond
  · intro other closed
    rw [Table.get?_remove]
    split
    · rfl
    · next apart =>
      rw [Function.update_of_ne (Ne.symm apart)] at closed
      exact mirrors.closed other closed
  · intro other text listed
    have apart : uri ≠ other := by
      rintro rfl
      rw [Function.update_self] at listed
      cases listed
    rw [Function.update_of_ne (Ne.symm apart)] at listed
    obtain ⟨known, last, view, trails⟩ := mirrors.opened other text listed
    refine ⟨known, last, view, ?_, ?_, trails.newest, trails.given, trails.limit, trails.arrives⟩
    · exact (Table.get?_remove_of_ne _ apart).trans trails.stated
    · exact (Table.get?_remove_of_ne _ apart).trans trails.shown

end Submit

/-- Of a state only the documents and their numbers matter. -/
theorem Mirrors.of_eq
    (mirrors : Mirrors sink Holds texts state traffic)
    {other : Applied String Document}
    (views : other.views = state.views)
    (documents : other.reparser.documents = state.reparser.documents)
    (newest : other.reparser.newest = state.reparser.newest)
    (last : other.reparser.lastSequence = state.reparser.lastSequence) :
    Mirrors sink Holds texts other traffic := by
  constructor
  · rw [last]
    exact mirrors.orderly
  · rw [views, last]
    exact mirrors.held
  · rw [documents, last]
    exact mirrors.bounded
  · rw [documents]
    exact mirrors.distinct
  · rw [views]
    exact mirrors.closed
  · intro uri text listed
    obtain ⟨known, number, document, trails⟩ := mirrors.opened uri text listed
    refine ⟨known, number, document, ?_, ?_, ?_, ?_, trails.limit, trails.arrives⟩
    · rw [documents]
      exact trails.stated
    · rw [views]
      exact trails.shown
    · rw [newest]
      exact trails.newest
    · rw [last]
      exact trails.given

end Mirrors

end LuaFold.Server
