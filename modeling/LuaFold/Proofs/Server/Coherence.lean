import LuaFold.Proofs.Reparse.Mark
import LuaFold.Proofs.Server.History
import LuaFold.Proofs.Server.Refinement

/-!
# Answers come from one text

Whatever happens in whatever order, as long as the client closes a document before it opens it
once more: the text of an open document, the index of its lines, its regions and its outline
belong together, and the text never falls behind a bar of its document.

The argument is about one step.  Every text on its way through queue, workers and channel was
issued with its number.  A document takes a result only with a number greater than the one its
state has applied, and the number of its text is greater by one at most: so a result that is taken
is never older than the text it replaces.
-/

namespace LuaFold.Server.Host

open Reparser (Applied)

variable {Index : Type} {decoder : Decoder} {lines : Lines Index} {coalesce : Bool}
  {moves : List Move}

section Kept

variable (decoder lines coalesce moves)

/-- What is kept of a document is coherent, was issued to it and is not behind its bars. -/
structure Current
    (uri : String)
    (known : DocumentState)
    (document : IndexedDocument Index) :
    Prop where
  coherent : document.Coherent lines
  issued : Issued decoder lines coalesce moves uri document.snapshot
  floor : ∀ bar, Bar decoder lines coalesce moves uri bar → bar ≤ document.snapshot.number
  limit : document.snapshot.number ≤ known.applied + 1

/-- Just the open documents have a state, and what is kept of each of them is current. -/
structure Kept (state : Applied String (IndexedDocument Index)) : Prop where
  present : ∀ uri,
    (state.views.get? uri).isSome = (state.reparser.documents.get? uri).isSome
  current : ∀ uri known document, state.reparser.documents.get? uri = some known →
    state.views.get? uri = some document → Current decoder lines coalesce moves uri known document

/-- A result is about a text that was issued with its number. -/
structure Genuine (update : Update String) : Prop where
  issued : Issued decoder lines coalesce moves update.document ⟨update.sequence, update.text⟩
  regions : update.regions = [] ∨ update.regions = foldRegions update.text

/-- A submission is of a text that was issued with its number. -/
def Submitted (submission : Submission String) : Prop :=
  Issued decoder lines coalesce moves submission.document ⟨submission.sequence, submission.text⟩

/-- Everything on its way through the workers was issued. -/
structure OnTheWay (pool : Reparser.Pool String (IndexedDocument Index)) : Prop where
  queued : ∀ submission ∈ pool.state.reparser.queue,
    Submitted decoder lines coalesce moves submission
  running : ∀ cycle ∈ pool.running, Submitted decoder lines coalesce moves cycle.1
  received : ∀ update ∈ pool.state.reparser.received, Genuine decoder lines coalesce moves update

/-- What holds of the host that moves reach. -/
structure Consistent : Prop where
  kept : Kept decoder lines coalesce moves (reached decoder lines coalesce moves).pool.state
  onTheWay : OnTheWay decoder lines coalesce moves (reached decoder lines coalesce moves).pool
  bounded : ∀ uri bar, Bar decoder lines coalesce moves uri bar →
    bar ≤ submissions decoder lines coalesce moves + 1
  since : (reached decoder lines coalesce moves).phase = .serving → ∀ uri,
    ((reached decoder lines coalesce moves).documents.get? uri).isSome = true →
      OpenSince decoder moves uri

end Kept

/-! ## Results -/

theorem genuine_update
    {submission : Submission String}
    (submitted : Submitted decoder lines coalesce moves submission)
    (faulty : Bool) :
    Genuine decoder lines coalesce moves (submission.update faulty) := by
  refine ⟨submitted, ?_⟩
  cases faulty with
  | true => exact Or.inl rfl
  | false => exact Or.inr rfl

section Apply

variable {state : Applied String (IndexedDocument Index)}

/-- A result that is taken makes a document current with its number. -/
theorem Current.refresh
    {uri : String}
    {known : DocumentState}
    {document : IndexedDocument Index}
    (current : Current decoder lines coalesce moves uri known document)
    {update : Update String}
    (genuine : Genuine decoder lines coalesce moves update)
    (here : update.document = uri)
    (newer : known.applied < update.sequence) :
    Current decoder lines coalesce moves uri { known with applied := update.sequence }
      ((Sink.indexed lines).refresh document update) := by
  subst here
  have refreshed := Sink.refresh_indexed current.coherent fun same =>
    (current.issued.unique genuine.issued same).2
  rw [refreshed]
  refine ⟨⟨rfl, genuine.regions, rfl⟩, genuine.issued, ?_, Nat.le_succ _⟩
  intro bar isBar
  calc
    bar ≤ document.snapshot.number := current.floor bar isBar
    _ ≤ known.applied + 1 := current.limit
    _ ≤ update.sequence := newer

theorem Kept.applyWith
    (kept : Kept decoder lines coalesce moves state)
    {update : Update String}
    (genuine : Genuine decoder lines coalesce moves update) :
    Kept decoder lines coalesce moves (state.applyWith (Sink.indexed lines).refresh update).1 := by
  rcases Applied.applyWith_cases (Sink.indexed lines).refresh state update with
    ⟨known, document, stated, shown, newer, taken⟩ | same
  · rw [taken]
    constructor
    · intro uri
      simp only [Table.get?_set]
      split
      · rfl
      · exact kept.present uri
    · intro uri known' document' stated' shown'
      simp only [Table.get?_set] at stated' shown'
      split at stated'
      · next here =>
        rw [if_pos here] at shown'
        cases stated'
        cases shown'
        subst here
        exact (kept.current _ _ _ stated shown).refresh genuine rfl newer
      · next apart =>
        rw [if_neg apart] at shown'
        exact kept.current _ _ _ stated' shown'
  · rw [same]
    exact kept

theorem Kept.applyEach
    (kept : Kept decoder lines coalesce moves state)
    {updates : List (Update String)}
    (genuine : ∀ update ∈ updates, Genuine decoder lines coalesce moves update) :
    Kept decoder lines coalesce moves (state.applyEach (Sink.indexed lines).refresh updates) := by
  induction updates generalizing state with
  | nil => exact kept
  | cons update updates ih =>
      exact ih (kept.applyWith (genuine update List.mem_cons_self)) fun other member =>
        genuine other (List.mem_cons_of_mem _ member)

end Apply

/-! ## One more move -/

section Append

variable {move : Move} {uri : String}

theorem Submitted.append
    {submission : Submission String}
    (submitted : Submitted decoder lines coalesce moves submission) :
    Submitted decoder lines coalesce (moves ++ [move]) submission :=
  Issued.append submitted [move]

theorem Genuine.append
    {update : Update String}
    (genuine : Genuine decoder lines coalesce moves update) :
    Genuine decoder lines coalesce (moves ++ [move]) update :=
  ⟨genuine.issued.append [move], genuine.regions⟩

/-- A document that is shown stays current over a move that does not reset it. -/
theorem Current.append
    {known : DocumentState}
    {document : IndexedDocument Index}
    (current : Current decoder lines coalesce moves uri known document)
    (shown : (reached decoder lines coalesce moves).documents.get? uri = some document)
    (lasting : ∀ edit, (reached decoder lines coalesce moves).served? decoder move = some edit →
      edit.uri = uri → edit.resets = false) :
    Current decoder lines coalesce (moves ++ [move]) uri known document := by
  refine ⟨current.coherent, current.issued.append [move], ?_, current.limit⟩
  intro bar isBar
  rcases isBar.cases with earlier | ⟨edit, served, here, resets, _⟩ | ⟨other, shownToo, rfl⟩
  · exact current.floor bar earlier
  · rw [lasting edit served here] at resets
    cases resets
  · rw [shown] at shownToo
    cases shownToo
    exact Nat.le_refl _

/-- What is on its way stays so. -/
theorem OnTheWay.append
    {pool : Reparser.Pool String (IndexedDocument Index)}
    (onTheWay : OnTheWay decoder lines coalesce moves pool) :
    OnTheWay decoder lines coalesce (moves ++ [move]) pool :=
  ⟨fun submission member => (onTheWay.queued submission member).append,
    fun cycle member => (onTheWay.running cycle member).append,
    fun update member => (onTheWay.received update member).append⟩

/-- The number of a text that is shown was given. -/
theorem Consistent.number_le
    (consistent : Consistent decoder lines coalesce moves)
    {document : IndexedDocument Index}
    (shown : (reached decoder lines coalesce moves).documents.get? uri = some document) :
    document.snapshot.number ≤ submissions decoder lines coalesce moves := by
  have present := consistent.kept.present uri
  have isShown : (reached decoder lines coalesce moves).pool.state.views.get? uri =
      some document := shown
  rw [isShown, Option.isSome_some] at present
  obtain ⟨known, stated⟩ := Option.isSome_iff_exists.mp present.symm
  exact (consistent.kept.current uri known document stated shown).issued.number_le

theorem Consistent.bounded_append
    (consistent : Consistent decoder lines coalesce moves)
    {bar : Nat}
    (isBar : Bar decoder lines coalesce (moves ++ [move]) uri bar) :
    bar ≤ submissions decoder lines coalesce moves + 1 := by
  rcases isBar.cases with earlier | ⟨edit, _, _, _, rfl⟩ | ⟨document, shown, rfl⟩
  · exact consistent.bounded uri bar earlier
  · exact Nat.le_refl _
  · exact Nat.le_succ_of_le (consistent.number_le shown)

/-- A move that resets nothing keeps all documents current. -/
theorem Kept.append
    {state : Applied String (IndexedDocument Index)}
    (kept : Kept decoder lines coalesce moves state)
    (shown : state.views = (reached decoder lines coalesce moves).documents)
    (lasting : ∀ edit, (reached decoder lines coalesce moves).served? decoder move = some edit →
      edit.resets = false) :
    Kept decoder lines coalesce (moves ++ [move]) state := by
  refine ⟨kept.present, fun uri known document stated isShown => ?_⟩
  refine (kept.current uri known document stated isShown).append ?_ fun edit served _ =>
    lasting edit served
  rw [← shown]
  exact isShown

theorem Kept.of_eq
    {state other : Applied String (IndexedDocument Index)}
    (kept : Kept decoder lines coalesce moves state)
    (views : other.views = state.views)
    (states : other.reparser.documents = state.reparser.documents) :
    Kept decoder lines coalesce moves other := by
  constructor
  · rw [views, states]
    exact kept.present
  · rw [views, states]
    exact kept.current

end Append

/-! ## Workers -/

section Workers

variable {pool : Reparser.Pool String (IndexedDocument Index)}

/-- A worker that picks up a submission moves it on, or drops it. -/
theorem OnTheWay.pickUp
    (onTheWay : OnTheWay decoder lines coalesce moves pool)
    (sequence : Nat)
    (faulty : Bool) :
    OnTheWay decoder lines coalesce moves (pool.pickUp sequence faulty) := by
  rcases pickUp_cases pool sequence faulty with same | ⟨submission, queued, same⟩
  · rw [same]
    exact onTheWay
  · rw [same]
    refine ⟨fun other member => onTheWay.queued other (List.mem_filter.mp member).1, ?_,
      onTheWay.received⟩
    intro cycle member
    rcases List.mem_append.mp member with earlier | started
    · exact onTheWay.running cycle earlier
    · split at started
      · cases started
      · rw [List.mem_singleton.mp started]
        exact onTheWay.queued submission queued

/-- A worker that finishes sends a genuine result. -/
theorem OnTheWay.finish
    (onTheWay : OnTheWay decoder lines coalesce moves pool)
    (sequence : Nat) :
    OnTheWay decoder lines coalesce moves (pool.finish sequence) := by
  rcases finish_cases pool sequence with same | ⟨cycle, running, same⟩
  · rw [same]
    exact onTheWay
  · rw [same]
    refine ⟨onTheWay.queued,
      fun other member => onTheWay.running other (List.mem_filter.mp member).1, ?_⟩
    intro update member
    rcases List.mem_append.mp member with earlier | sent
    · exact onTheWay.received update earlier
    · rw [List.mem_singleton.mp sent]
      exact genuine_update (onTheWay.running cycle running) cycle.2

theorem pickUp_documents
    (pool : Reparser.Pool String (IndexedDocument Index))
    (sequence : Nat)
    (faulty : Bool) :
    (pool.pickUp sequence faulty).state.views = pool.state.views ∧
        (pool.pickUp sequence faulty).state.reparser.documents = pool.state.reparser.documents := by
  rcases pickUp_cases pool sequence faulty with same | ⟨_, _, same⟩
  · rw [same]
    exact ⟨rfl, rfl⟩
  · rw [same]
    exact ⟨rfl, rfl⟩

theorem finish_documents
    (pool : Reparser.Pool String (IndexedDocument Index))
    (sequence : Nat) :
    (pool.finish sequence).state.views = pool.state.views ∧
        (pool.finish sequence).state.reparser.documents = pool.state.reparser.documents := by
  rcases finish_cases pool sequence with same | ⟨_, _, same⟩
  · rw [same]
    exact ⟨rfl, rfl⟩
  · rw [same]
    exact ⟨rfl, rfl⟩

end Workers

/-! ## Steps -/

section Steps

variable {move : Move}

/-- What one move leads to, put together. -/
theorem Consistent.step
    (consistent : Consistent decoder lines coalesce moves)
    {host : Host (IndexedDocument Index)}
    (reaches :
      ((reached decoder lines coalesce moves).perform decoder (.indexed lines) move).1 = host)
    (kept : Kept decoder lines coalesce (moves ++ [move]) host.pool.state)
    (onTheWay : OnTheWay decoder lines coalesce (moves ++ [move]) host.pool)
    (since : (reached decoder lines coalesce moves).phase = .serving → ∀ uri,
      (host.documents.get? uri).isSome = true → OpenSince decoder (moves ++ [move]) uri) :
    Consistent decoder lines coalesce (moves ++ [move]) := by
  subst reaches
  rw [← reached_append_singleton] at kept onTheWay since
  refine ⟨kept, onTheWay, fun uri bar isBar => ?_, fun serving => since ?_⟩
  · have more := @submissions_append _ decoder lines coalesce moves [move]
    have below := consistent.bounded_append isBar
    omega
  · by_contra stopped
    rw [reached_append_singleton] at serving
    exact phase_perform_of_not_serving stopped move serving

/-- A move that is not served leaves open documents open. -/
theorem Consistent.since_of_unserved
    (consistent : Consistent decoder lines coalesce moves)
    (unserved : (reached decoder lines coalesce moves).served? decoder move = none)
    (serving : (reached decoder lines coalesce moves).phase = .serving)
    (uri : String)
    (isOpen : ((reached decoder lines coalesce moves).documents.get? uri).isSome = true) :
    OpenSince decoder (moves ++ [move]) uri := by
  refine (consistent.since serving uri isOpen).append fun closes => ?_
  rw [served?, if_pos serving, closes] at unserved
  cases unserved

/-- A move that is not served and changes no document. -/
theorem Consistent.quiet
    (consistent : Consistent decoder lines coalesce moves)
    (unserved : (reached decoder lines coalesce moves).served? decoder move = none)
    {host : Host (IndexedDocument Index)}
    (reaches :
      ((reached decoder lines coalesce moves).perform decoder (.indexed lines) move).1 = host)
    (views : host.pool.state.views = (reached decoder lines coalesce moves).pool.state.views)
    (states : host.pool.state.reparser.documents =
      (reached decoder lines coalesce moves).pool.state.reparser.documents)
    (onTheWay : OnTheWay decoder lines coalesce moves host.pool) :
    Consistent decoder lines coalesce (moves ++ [move]) := by
  refine consistent.step reaches ?_ onTheWay.append fun serving uri isOpen => ?_
  · refine (consistent.kept.append rfl fun edit served => ?_).of_eq views states
    rw [unserved] at served
    cases served
  · rw [documents, views] at isOpen
    exact consistent.since_of_unserved unserved serving uri isOpen

theorem Consistent.apply (consistent : Consistent decoder lines coalesce moves) :
    Consistent decoder lines coalesce (moves ++ [.apply]) := by
  have unserved : (reached decoder lines coalesce moves).served? decoder .apply = none :=
    served?_of_silent _ rfl
  rcases @apply_cases _ (.indexed lines) (reached decoder lines coalesce moves) with
    same | ⟨state, running⟩
  · exact consistent.quiet unserved same rfl rfl consistent.onTheWay
  have onTheWay : OnTheWay decoder lines coalesce (moves ++ [.apply])
      (reached decoder lines coalesce moves).pool := consistent.onTheWay.append
  refine consistent.step rfl ?_ ?_ fun serving uri isOpen => ?_
  · simp only [perform]
    rw [state]
    have kept : Kept decoder lines coalesce (moves ++ [.apply])
        (reached decoder lines coalesce moves).emptied := by
      refine (consistent.kept.append rfl fun edit served => ?_).of_eq rfl rfl
      rw [unserved] at served
      cases served
    exact kept.applyEach fun update member =>
      onTheWay.received update (Reparser.mem_of_mem_newestUpdates member)
  · obtain ⟨documents, reparser⟩ := Applied.reparser_applyEach (Sink.indexed lines).refresh
      (reached decoder lines coalesce moves).emptied (reached decoder lines coalesce moves).pending
    simp only [perform]
    refine ⟨?_, ?_, ?_⟩
    · rw [state, reparser]
      exact onTheWay.queued
    · rw [running]
      exact onTheWay.running
    · rw [state, reparser]
      intro update member
      cases member
  · simp only [perform, Host.documents] at isOpen
    rw [state, Applied.isSome_views_applyEach] at isOpen
    exact consistent.since_of_unserved unserved serving uri isOpen

/-! ## Edits -/

section Edits

variable {uri : String} {text : Text}

/-- Of a careful client, a document that it opens is not open and has no state. -/
theorem Consistent.absent
    (consistent : Consistent decoder lines coalesce moves)
    (careful : Careful decoder (messages (moves ++ [move])))
    (served :
      (reached decoder lines coalesce moves).served? decoder move = some (.opening uri text)) :
    (reached decoder lines coalesce moves).documents.get? uri = none ∧
      (reached decoder lines coalesce moves).reparser.documents.get? uri = none := by
  have serving : (reached decoder lines coalesce moves).phase = .serving := by
    by_contra stopped
    rw [served?, if_neg stopped] at served
    cases served
  have opens : move.edit? decoder = some (.opening uri text) := by
    rwa [served?, if_pos serving] at served
  have closed : (reached decoder lines coalesce moves).documents.get? uri = none := by
    cases shown : (reached decoder lines coalesce moves).documents.get? uri with
    | none => rfl
    | some document =>
        have since := consistent.since serving uri (by rw [shown]; rfl)
        exact absurd opens (since.not_opening careful)
  have present := consistent.kept.present uri
  refine ⟨closed, ?_⟩
  have isClosed : (reached decoder lines coalesce moves).pool.state.views.get? uri = none := closed
  rw [isClosed] at present
  exact Option.isSome_eq_false_iff.mp present.symm |> Option.isNone_iff_eq_none.mp

/-- The state that a document gets with its first submission. -/
theorem stateFor_of_absent
    {reparser : Reparser String}
    (absent : reparser.documents.get? uri = none) :
    reparser.stateFor uri = ⟨reparser.nextSequence, reparser.lastSequence⟩ := by
  rw [Reparser.stateFor, absent, Option.getD_none]

/-- A document that has a state keeps it when a text is submitted. -/
theorem get?_schedule_of_present
    {reparser : Reparser String}
    {known : DocumentState}
    (stated : reparser.documents.get? uri = some known)
    (text : Text)
    (other : String) :
    (reparser.schedule uri text).documents.get? other = reparser.documents.get? other := by
  have state : reparser.stateFor uri = known := by
    rw [Reparser.stateFor, stated, Option.getD_some]
  rw [Reparser.schedule, state, Table.get?_set]
  split
  · next here => rw [← here, stated]
  · rfl

/-- What is queued behind a submission was issued, the submission with it. -/
theorem OnTheWay.schedule
    {pool : Reparser.Pool String (IndexedDocument Index)}
    (onTheWay : OnTheWay decoder lines coalesce moves pool)
    (issued : Issued decoder lines coalesce moves uri ⟨pool.state.reparser.nextSequence, text⟩)
    (views : Table String (IndexedDocument Index)) :
    OnTheWay decoder lines coalesce moves
      (pool.amid ⟨pool.state.reparser.schedule uri text, views⟩) := by
  refine ⟨?_, onTheWay.running, onTheWay.received⟩
  intro submission member
  rcases List.mem_append.mp member with earlier | last
  · exact onTheWay.queued submission earlier
  · rw [List.mem_singleton.mp last]
    exact issued

/-- What is kept of a document stays current when another one is edited. -/
theorem Consistent.current_elsewhere
    (consistent : Consistent decoder lines coalesce moves)
    {edit : Edit}
    (served : (reached decoder lines coalesce moves).served? decoder move = some edit)
    {other : String}
    (apart : edit.uri ≠ other)
    {known : DocumentState}
    {document : IndexedDocument Index}
    (stated : (reached decoder lines coalesce moves).reparser.documents.get? other = some known)
    (shown : (reached decoder lines coalesce moves).documents.get? other = some document) :
    Current decoder lines coalesce (moves ++ [move]) other known document := by
  refine (consistent.kept.current other known document stated shown).append shown ?_
  intro latest servedLatest here
  rw [served] at servedLatest
  cases servedLatest
  exact absurd here apart

theorem Consistent.opening
    (consistent : Consistent decoder lines coalesce moves)
    (careful : Careful decoder (messages (moves ++ [move])))
    (served :
      (reached decoder lines coalesce moves).served? decoder move = some (.opening uri text))
    (reaches : ((reached decoder lines coalesce moves).perform decoder (.indexed lines) move).1 =
      (reached decoder lines coalesce moves).edit (.indexed lines) (.opening uri text)) :
    Consistent decoder lines coalesce (moves ++ [move]) := by
  obtain ⟨closed, stateless⟩ := consistent.absent careful served
  have counted : submissions decoder lines coalesce (moves ++ [move]) =
      submissions decoder lines coalesce moves + 1 := by
    rw [submissions, reached_append_singleton, reaches]
    rfl
  have issued := issued_of_served served (rfl : Edit.text? (.opening uri text) = some text) counted
  refine consistent.step reaches ?_ (consistent.onTheWay.append.schedule issued _) ?_
  · constructor
    · intro other
      simp only [edit, didOpen, withState, Reparser.Pool.amid, Reparser.schedule, Table.get?_set]
      split
      · rfl
      · exact consistent.kept.present other
    · intro other known document stated shown
      simp only [edit, didOpen, withState, Reparser.Pool.amid, Reparser.schedule,
        Table.get?_set] at stated shown
      split at stated
      · next here =>
        subst here
        rw [if_pos rfl] at shown
        rw [stateFor_of_absent stateless] at stated
        cases stated
        cases shown
        exact ⟨⟨rfl, Or.inl rfl, rfl⟩, issued, fun bar => consistent.bounded_append, Nat.le_refl _⟩
      · next apart =>
        rw [if_neg apart] at shown
        exact consistent.current_elsewhere served apart stated shown
  · intro serving other isOpen
    have opens : move.edit? decoder = some (.opening uri text) := by
      rwa [served?, if_pos serving] at served
    by_cases here : uri = other
    · subst here
      exact ⟨moves, move, [], text, rfl, opens, by simp⟩
    · simp only [edit, didOpen, withState, Reparser.Pool.amid, documents, Table.get?_set,
        if_neg here] at isOpen
      refine (consistent.since serving other isOpen).append ?_
      rw [opens]
      intro closes
      cases closes

/-- A change of an open document submits a text and leaves what is kept of documents alone. -/
theorem Consistent.change
    (consistent : Consistent decoder lines coalesce moves)
    {changes : List Text}
    (served :
      (reached decoder lines coalesce moves).served? decoder move = some (.change uri changes))
    (reaches : ((reached decoder lines coalesce moves).perform decoder (.indexed lines) move).1 =
      (reached decoder lines coalesce moves).edit (.indexed lines) (.change uri changes)) :
    Consistent decoder lines coalesce (moves ++ [move]) := by
  have lasting : ∀ edit, (reached decoder lines coalesce moves).served? decoder move = some edit →
      edit.resets = false := by
    intro edit served'
    rw [served] at served'
    cases served'
    rfl
  have since : (reached decoder lines coalesce moves).phase = .serving → ∀ uri,
      ((reached decoder lines coalesce moves).documents.get? uri).isSome = true →
        OpenSince decoder (moves ++ [move]) uri := by
    intro serving other isOpen
    refine (consistent.since serving other isOpen).append ?_
    rw [served?, if_pos serving] at served
    rw [served]
    intro closes
    cases closes
  have kept := consistent.kept.append rfl lasting
  by_cases present : (reached decoder lines coalesce moves).documents.contains uri = true
  · cases last : changes.getLast? with
    | none =>
        have same :
            (reached decoder lines coalesce moves).edit (.indexed lines) (.change uri changes) =
              reached decoder lines coalesce moves := by
          simp only [edit, didChange, last, if_pos present]
        exact consistent.step (reaches.trans same) kept consistent.onTheWay.append since
    | some text =>
        have same :
            (reached decoder lines coalesce moves).edit (.indexed lines) (.change uri changes) =
              (reached decoder lines coalesce moves).withState
              ((reached decoder lines coalesce moves).reparser.schedule uri text)
              (reached decoder lines coalesce moves).documents := by
          simp only [edit, didChange, last, if_pos present]
        have counted : submissions decoder lines coalesce (moves ++ [move]) =
            submissions decoder lines coalesce moves + 1 := by
          rw [submissions, reached_append_singleton, reaches, same]
          rfl
        have issued := issued_of_served served last counted
        refine consistent.step (reaches.trans same) ?_
          (consistent.onTheWay.append.schedule issued _) since
        -- the document is open, so it has a state already
        obtain ⟨known, stated⟩ := Option.isSome_iff_exists.mp
          ((consistent.kept.present uri).symm.trans present)
        have states := get?_schedule_of_present stated text
        constructor
        · intro other
          exact (kept.present other).trans (congrArg Option.isSome (states other).symm)
        · intro other known document stated shown
          exact kept.current other known document ((states other).symm.trans stated) shown
  · have same : (reached decoder lines coalesce moves).edit (.indexed lines) (.change uri changes) =
        reached decoder lines coalesce moves := by
      simp only [edit, didChange, if_neg present]
    exact consistent.step (reaches.trans same) kept consistent.onTheWay.append since

theorem Consistent.closing
    (consistent : Consistent decoder lines coalesce moves)
    (served : (reached decoder lines coalesce moves).served? decoder move = some (.closing uri))
    (reaches : ((reached decoder lines coalesce moves).perform decoder (.indexed lines) move).1 =
      (reached decoder lines coalesce moves).edit (.indexed lines) (.closing uri)) :
    Consistent decoder lines coalesce (moves ++ [move]) := by
  refine consistent.step reaches ?_ ?_ ?_
  · constructor
    · intro other
      simp only [edit, didClose, withState, Reparser.Pool.amid, Reparser.forget,
        Table.get?_remove]
      split
      · rfl
      · exact consistent.kept.present other
    · intro other known document stated shown
      simp only [edit, didClose, withState, Reparser.Pool.amid, Reparser.forget,
        Table.get?_remove] at stated shown
      split at stated
      · cases stated
      · next apart =>
        rw [if_neg apart] at shown
        exact consistent.current_elsewhere served apart stated shown
  · have onTheWay : OnTheWay decoder lines coalesce (moves ++ [move])
        (reached decoder lines coalesce moves).pool := consistent.onTheWay.append
    exact ⟨onTheWay.queued, onTheWay.running, onTheWay.received⟩
  · intro serving other isOpen
    simp only [edit, didClose, withState, Reparser.Pool.amid, documents,
      Table.get?_remove] at isOpen
    split at isOpen
    · cases isOpen
    · next apart =>
      refine (consistent.since serving other isOpen).append fun closes => apart ?_
      rw [served?, if_pos serving, closes] at served
      cases served
      rfl

theorem Consistent.edit
    (consistent : Consistent decoder lines coalesce moves)
    (careful : Careful decoder (messages (moves ++ [move])))
    {edit : Edit}
    (served : (reached decoder lines coalesce moves).served? decoder move = some edit)
    (reaches : ((reached decoder lines coalesce moves).perform decoder (.indexed lines) move).1 =
      (reached decoder lines coalesce moves).edit (.indexed lines) edit) :
    Consistent decoder lines coalesce (moves ++ [move]) := by
  cases edit with
  | opening uri text => exact consistent.opening careful served reaches
  | change uri changes => exact consistent.change served reaches
  | closing uri => exact consistent.closing served reaches

end Edits

/-- Every move keeps a host consistent, as long as the client is careful. -/
theorem Consistent.perform
    (consistent : Consistent decoder lines coalesce moves)
    (move : Move)
    (careful : Careful decoder (messages (moves ++ [move]))) :
    Consistent decoder lines coalesce (moves ++ [move]) := by
  cases move with
  | receive message =>
      rcases @receive_cases _ decoder (.indexed lines) (reached decoder lines coalesce moves)
          message with
        ⟨edit, served, same⟩ | ⟨unserved, same⟩
      · exact consistent.edit careful served same
      · refine consistent.quiet unserved rfl ?_ ?_ ?_
        · exact congrArg (fun pool => pool.state.views) same
        · exact congrArg (fun pool => pool.state.reparser.documents) same
        · exact same ▸ consistent.onTheWay
  | pickUp sequence faulty =>
      obtain ⟨views, states⟩ :=
        pickUp_documents (reached decoder lines coalesce moves).pool sequence faulty
      exact consistent.quiet (served?_of_silent _ rfl) rfl views states
        (consistent.onTheWay.pickUp sequence faulty)
  | finish sequence =>
      obtain ⟨views, states⟩ :=
        finish_documents (reached decoder lines coalesce moves).pool sequence
      exact consistent.quiet (served?_of_silent _ rfl) rfl views states
        (consistent.onTheWay.finish sequence)
  | apply => exact consistent.apply

end Steps

theorem consistent_nil : Consistent decoder lines coalesce [] := by
  refine ⟨⟨fun uri => rfl, ?_⟩, ⟨?_, ?_, ?_⟩, ?_, ?_⟩
  · intro uri known document stated
    cases stated
  · intro submission member
    cases member
  · intro cycle member
    cases member
  · intro update member
    cases member
  · intro uri bar isBar
    cases isBar with
    | reset cut => simp at cut
    | shown cut => simp at cut
  · intro serving uri isOpen
    cases isOpen

/-- The host of a careful client is consistent throughout its run. -/
theorem consistent_reached (careful : Careful decoder (messages moves)) :
    Consistent decoder lines coalesce moves := by
  induction moves using List.reverseRecOn with
  | nil => exact consistent_nil
  | append_singleton moves move ih =>
      have earlier : Careful decoder (messages moves) := by
        rw [messages_append] at careful
        exact careful.front
      exact (ih earlier).perform move careful

/-! ## Answers -/

/-- The server that keeps the same documents without their indices. -/
def unindexed (host : Host (IndexedDocument Index)) : Server :=
  ⟨⟨host.reparser,
    ⟨host.documents.entries.map fun entry => (entry.1, entry.2.plain)⟩⟩, host.phase⟩

theorem get?_unindexed
    (host : Host (IndexedDocument Index))
    (uri : String) :
    host.unindexed.state.views.get? uri =
      (host.documents.get? uri).map IndexedDocument.plain := by
  simp [unindexed, Table.get?, List.find?_map, Function.comp_def]

/-- A host with coherent documents answers as the server that looks at their texts. -/
theorem answer_unindexed
    {host : Host (IndexedDocument Index)}
    (coherent : ∀ uri document, host.documents.get? uri = some document →
      document.Coherent lines)
    (method : String)
    (params : Json) :
    host.answer decoder (.indexed lines) method params =
      host.unindexed.answer decoder method params := by
  rw [answer, Server.answer]
  cases Question.ofMethod? method with
  | none => rfl
  | some question =>
      dsimp only
      cases decoder.query question params with
      | error reason => rfl
      | ok uri =>
          dsimp only
          rw [get?_unindexed]
          cases shown : host.documents.get? uri with
          | none => rfl
          | some document =>
              exact congrArg Except.ok (Sink.answer_indexed (coherent uri document shown) question)

/-- What a host responds to a message is what the server responds that looks at the texts. -/
theorem responses_unindexed
    {host : Host (IndexedDocument Index)}
    (coherent : ∀ uri document, host.documents.get? uri = some document →
      document.Coherent lines)
    (message : Message) :
    (host.receive decoder (.indexed lines) message).responses =
      (host.unindexed.receiveWith decoder message).2.toList :=
  responses_server rfl (answer_unindexed coherent) message

/--
A text was submitted for a document by the message that opened it last, or by a change since: the
document was neither opened nor closed by a later message.
-/
def SubmittedLately
    (decoder : Decoder)
    (lines : Lines Index)
    (coalesce : Bool)
    (moves : List Move)
    (uri : String)
    (snapshot : Snapshot) :
    Prop :=
  ∃ before move after edit, moves = before ++ move :: after ∧
    (reached decoder lines coalesce before).served? decoder move = some edit ∧
    edit.uri = uri ∧ edit.text? = some snapshot.text ∧
    submissions decoder lines coalesce before < snapshot.number ∧
    submissions decoder lines coalesce (before ++ [move]) = snapshot.number ∧
    ∀ middle other rest later, after = middle ++ other :: rest →
      (reached decoder lines coalesce (before ++ move :: middle)).served? decoder other =
          some later →
        later.uri = uri → later.resets = false

/-- A text that was issued and is not behind its bars was submitted since the last reset. -/
theorem Current.submittedLately
    {uri : String}
    {known : DocumentState}
    {document : IndexedDocument Index}
    (current : Current decoder lines coalesce moves uri known document) :
    SubmittedLately decoder lines coalesce moves uri document.snapshot := by
  obtain ⟨before, move, after, edit, cut, served, here, text, number, last⟩ := current.issued
  refine ⟨before, move, after, edit, cut, served, here, text, by omega, last, ?_⟩
  rintro middle other rest later rfl servedLater isHere
  by_contra resets
  rw [Bool.not_eq_false] at resets
  -- the reset is a bar behind the number of the text
  have here : moves = (before ++ move :: middle) ++ other :: rest := by simp [cut]
  have above := current.floor _ (.reset here servedLater isHere resets)
  have more := @submissions_append _ decoder lines coalesce (before ++ [move]) middle
  rw [← List.append_cons] at more
  omega

/-- The state and the shown document of an open document are current. -/
theorem Consistent.exists_current
    (consistent : Consistent decoder lines coalesce moves)
    {uri : String}
    {document : IndexedDocument Index}
    (shown : (reached decoder lines coalesce moves).documents.get? uri = some document) :
    ∃ known, Current decoder lines coalesce moves uri known document := by
  have present := consistent.kept.present uri
  have isShown : (reached decoder lines coalesce moves).pool.state.views.get? uri =
      some document := shown
  rw [isShown, Option.isSome_some] at present
  obtain ⟨known, stated⟩ := Option.isSome_iff_exists.mp present.symm
  exact ⟨known, consistent.kept.current uri known document stated shown⟩

/--
As long as the client closes a document before it opens it once more, whatever the order of
messages, workers and batches, and however parameters are decoded: just the open documents have a
state.  What is kept of an open document belongs to one text, so every offset that is converted for
an answer stands between characters of the indexed text, and the responses are those of the server
that looks at the text.  The text was submitted when the document was opened last or by a change
since, and it is never older than a text that was shown for the document before.
-/
theorem answers_from_one_text
    (decoder : Decoder)
    (lines : Lines Index)
    (coalesce : Bool)
    {moves : List Move}
    (careful : Careful decoder (messages moves)) :
    ∀ host, host = reached decoder lines coalesce moves →
      (∀ uri,
        (host.documents.get? uri).isSome = (host.reparser.documents.get? uri).isSome) ∧
      (∀ uri document, host.documents.get? uri = some document →
        document.Coherent lines ∧
        (∀ offset ∈ document.offsets, document.snapshot.text.IsBoundary offset) ∧
        SubmittedLately decoder lines coalesce moves uri document.snapshot ∧
        ∀ before after earlier, moves = before ++ after →
          (reached decoder lines coalesce before).documents.get? uri = some earlier →
            earlier.snapshot.number ≤ document.snapshot.number) ∧
      ∀ message,
        (host.receive decoder (.indexed lines) message).responses =
          (host.unindexed.receiveWith decoder message).2.toList := by
  rintro host rfl
  have consistent : Consistent decoder lines coalesce moves := consistent_reached careful
  have coherent : ∀ uri document,
      (reached decoder lines coalesce moves).documents.get? uri = some document →
        document.Coherent lines := by
    intro uri document shown
    obtain ⟨known, current⟩ := consistent.exists_current shown
    exact current.coherent
  refine ⟨consistent.kept.present, ?_, responses_unindexed coherent⟩
  intro uri document shown
  obtain ⟨known, current⟩ := consistent.exists_current shown
  refine ⟨current.coherent, current.coherent.isBoundary, current.submittedLately, ?_⟩
  intro before after earlier cut shownEarlier
  cases after with
  | nil =>
      rw [List.append_nil] at cut
      subst cut
      rw [shown] at shownEarlier
      cases shownEarlier
      exact Nat.le_refl _
  | cons move after => exact current.floor _ (.shown cut shownEarlier)

/-- The document is closed. -/
def closed : Message :=
  .notification "textDocument/didClose" (.object
    [("textDocument", .object [("uri", .string "file:///init.lua")])])

/-- A document is closed and opened with another text before the result for the first comes in. -/
def reopened : List Move :=
  [.receive (opened "function f() end"), .pickUp 1 false, .receive closed,
    .receive (opened "function g() end"), .finish 1, .apply, .pickUp 2 false, .finish 2, .apply]

theorem careful_reopened : Careful .standard (messages reopened) := by
  have closes : closed.edit? .standard = some (.closing "file:///init.lua") := by
    decide +kernel
  have here : (opened "function f() end").edit? .standard =
      some (.opening "file:///init.lua" "function f() end".toList) := by
    decide +kernel
  have whole : messages reopened =
      [opened "function f() end", closed, opened "function g() end"] := rfl
  intro before first between second after uri text other cut opens reopens
  rw [whole] at cut
  match before, between with
  | [], [] =>
      simp only [List.nil_append, List.cons.injEq] at cut
      rw [← cut.2.1, closes] at reopens
      cases reopens
  | [], message :: between =>
      simp only [List.nil_append, List.cons_append, List.cons.injEq] at cut
      rw [← cut.1, here] at opens
      cases opens
      rw [← cut.2.1]
      exact ⟨closed, List.mem_cons_self, closes⟩
  | [_], between =>
      simp only [List.cons_append, List.nil_append, List.cons.injEq] at cut
      rw [← cut.2.1, closes] at opens
      cases opens
  | _ :: _ :: before, between =>
      have lengths := congrArg List.length cut
      simp at lengths
      omega

theorem answers_from_one_text_reopened :
    Careful .standard (messages reopened) ∧
      ∃ document,
        (reached .standard textLines true reopened).documents.get? "file:///init.lua" =
          some document ∧
        document.snapshot = ⟨2, "function g() end".toList⟩ ∧
        document.Coherent textLines ∧
        SubmittedLately .standard textLines true reopened "file:///init.lua"
          document.snapshot := by
  have shown :
      ((reached .standard textLines true reopened).documents.get? "file:///init.lua").map
        IndexedDocument.snapshot = some ⟨2, "function g() end".toList⟩ := by
    decide +kernel
  obtain ⟨document, isOpen, snapshot⟩ := Option.map_eq_some_iff.mp shown
  obtain ⟨_, documents, _⟩ :=
    answers_from_one_text .standard textLines true careful_reopened _ rfl
  obtain ⟨coherent, _, lately, _⟩ := documents _ document isOpen
  exact ⟨careful_reopened, document, isOpen, snapshot, coherent, lately⟩

end LuaFold.Server.Host
