import LuaFold.Proofs.Server.Indexed

/-!
# The history of a host

What a host has come to is told by the moves that led there.  A move is served if it brings in a
message while the host is in service, and the message asks for a change to the open documents.
Each served move that submits a text gives the text the next number, so a number stands for one
text of one document.

A document must not show a text from before a certain number: not one from before it was opened or
closed last, and not one from before the text that was shown last.  These are its bars.
-/

namespace LuaFold.Server

/-! ## Edits in messages -/

/-- The change to the open documents that a message asks for, if it asks for one. -/
def Message.edit? (decoder : Decoder) : Message → Option Edit
  | .request _ _ _ => none
  | .notification method params => Edit.ofNotification? decoder method params
  | .response => none

namespace Edit

/-- The document that is changed. -/
def uri : Edit → String
  | opening uri _ => uri
  | change uri _ => uri
  | closing uri => uri

/-- The text that is submitted. -/
def text? : Edit → Option Text
  | opening _ text => some text
  | change _ changes => changes.getLast?
  | closing _ => none

/-- Whether the document is opened or closed. -/
def resets : Edit → Bool
  | opening _ _ => true
  | change _ _ => false
  | closing _ => true

end Edit

/-- A client is careful if it closes a document before it opens it once more. -/
def Careful
    (decoder : Decoder)
    (messages : List Message) :
    Prop :=
  ∀ before first between second after uri text other,
    messages = before ++ first :: (between ++ second :: after) →
      first.edit? decoder = some (.opening uri text) →
        second.edit? decoder = some (.opening uri other) →
          ∃ message ∈ between, message.edit? decoder = some (.closing uri)

theorem Careful.front
    {decoder : Decoder}
    {messages more : List Message}
    (careful : Careful decoder (messages ++ more)) :
    Careful decoder messages := by
  rintro before first between second after uri text other rfl opens reopens
  refine careful before first between second (after ++ more) uri text other ?_ opens reopens
  simp

namespace Host

/-- A cut of moves with one more at the end is a cut of the moves, or in front of the last. -/
theorem cut_append_singleton
    {moves before after : List Move}
    {move last : Move}
    (cut : moves ++ [last] = before ++ move :: after) :
    (before = moves ∧ move = last) ∨ ∃ rest, moves = before ++ move :: rest := by
  rcases List.eq_nil_or_concat after with rfl | ⟨rest, other, rfl⟩
  · obtain ⟨rfl, same⟩ := List.append_inj' cut rfl
    cases same
    exact Or.inl ⟨rfl, rfl⟩
  · rw [List.concat_eq_append, ← List.cons_append, ← List.append_assoc] at cut
    obtain ⟨rfl, _⟩ := List.append_inj' cut rfl
    exact Or.inr ⟨rest, rfl⟩

/-- Of two cuts of the same moves one is in front of the other, or they are the same. -/
theorem cut_cases
    {before after before' after' : List Move}
    {move move' : Move}
    (cut : before ++ move :: after = before' ++ move' :: after') :
    (before = before' ∧ move = move') ∨ (∃ between, before' = before ++ move :: between) ∨
      ∃ between, before = before' ++ move' :: between := by
  rcases List.append_eq_append_iff.mp cut with ⟨between, rfl, rest⟩ | ⟨between, rfl, rest⟩
  · cases between with
    | nil =>
        cases rest
        exact Or.inl ⟨(List.append_nil _).symm, rfl⟩
    | cons first between =>
        cases rest
        exact Or.inr (Or.inl ⟨between, rfl⟩)
  · cases between with
    | nil =>
        cases rest
        exact Or.inl ⟨List.append_nil _, rfl⟩
    | cons first between =>
        cases rest
        exact Or.inr (Or.inr ⟨between, rfl⟩)

/-! ## What is served -/

section Served

variable {Document : Type} {decoder : Decoder} {sink : Sink Document}

/-- The change to the open documents that a move asks for, if it asks for one. -/
def Move.edit? (decoder : Decoder) (move : Move) : Option Edit :=
  move.message?.bind (Message.edit? decoder)

/-- The change to the open documents that a host is asked for while it is in service. -/
def served?
    (decoder : Decoder)
    (host : Host Document)
    (move : Move) :
    Option Edit :=
  if host.phase = .serving then move.edit? decoder else none

/-- A host that is not in service keeps everything but its phase. -/
theorem pool_receive_of_not_serving
    {host : Host Document}
    (stopped : host.phase ≠ .serving)
    (message : Message) :
    (host.receive decoder sink message).host.pool = host.pool := by
  unfold receive
  split
  · rfl
  · rfl
  · rfl
  · next serving => exact absurd serving stopped
  · next serving _ => exact absurd serving stopped

/-- A host that is not in service does not come back into it. -/
theorem phase_receive_of_not_serving
    {host : Host Document}
    (stopped : host.phase ≠ .serving)
    (message : Message) :
    (host.receive decoder sink message).host.phase ≠ .serving := by
  unfold receive
  split
  · exact stopped
  · exact Phase.noConfusion
  · exact Phase.noConfusion
  · next serving => exact absurd serving stopped
  · next serving _ => exact absurd serving stopped

/-- What a host makes of a message: the change that it asks for, or no change. -/
theorem receive_cases
    (host : Host Document)
    (message : Message) :
    (∃ edit, host.served? decoder (.receive message) = some edit ∧
      (host.receive decoder sink message).host = host.edit sink edit) ∨
      (host.served? decoder (.receive message) = none ∧
        (host.receive decoder sink message).host.pool = host.pool) := by
  by_cases serving : host.phase = .serving
  · simp only [served?, if_pos serving, Move.edit?, Move.message?, Option.bind_some]
    cases message with
    | request id method params =>
        refine Or.inr ⟨rfl, ?_⟩
        by_cases shuts : method = "shutdown"
        · simp [receive, serving, shuts]
        · rw [receive_eq serving (by simp [Message.isShutdown, shuts]), Handlers.message,
            request_eq]
    | response =>
        refine Or.inr ⟨rfl, ?_⟩
        rw [receive_eq serving rfl]
        rfl
    | notification method params =>
        rw [receive_eq serving rfl, Handlers.message, host_notification, Message.edit?]
        cases Edit.ofNotification? decoder method params with
        | none => exact Or.inr ⟨rfl, rfl⟩
        | some edit => exact Or.inl ⟨edit, rfl, rfl⟩
  · exact Or.inr ⟨if_neg serving, pool_receive_of_not_serving serving message⟩

theorem served?_of_silent
    (host : Host Document)
    {move : Move}
    (silent : move.message? = none) :
    host.served? decoder move = none := by
  rw [served?, Move.edit?, silent]
  split
  · rfl
  · rfl

/-! ## Numbers of submissions -/

theorem lastSequence_edit
    (host : Host Document)
    (edit : Edit) :
    host.reparser.lastSequence ≤ (host.edit sink edit).reparser.lastSequence := by
  cases edit with
  | opening uri text => exact Nat.le_succ _
  | closing uri => exact Nat.le_refl _
  | change uri changes =>
      rw [edit, didChange]
      split
      · split
        · exact Nat.le_succ _
        · exact Nat.le_refl _
      · exact Nat.le_refl _

/-- A worker that picks up a submission takes it off the queue, and starts on it or not. -/
theorem pickUp_cases
    (pool : Reparser.Pool String Document)
    (sequence : Nat)
    (faulty : Bool) :
    pool.pickUp sequence faulty = pool ∨ ∃ submission ∈ pool.state.reparser.queue,
      pool.pickUp sequence faulty = pool.start submission faulty := by
  rw [Reparser.Pool.pickUp]
  split
  · exact Or.inl rfl
  · next submission found => exact Or.inr ⟨submission, List.mem_of_find?_eq_some found, rfl⟩

/-- A worker that finishes sends the result of what it was running. -/
theorem finish_cases
    (pool : Reparser.Pool String Document)
    (sequence : Nat) :
    pool.finish sequence = pool ∨ ∃ cycle ∈ pool.running,
      pool.finish sequence = pool.send cycle := by
  rw [Reparser.Pool.finish]
  split
  · exact Or.inl rfl
  · next cycle found => exact Or.inr ⟨cycle, List.mem_of_find?_eq_some found, rfl⟩

/-- Applying what was received: the newest results one after the other, or nothing. -/
theorem apply_cases (host : Host Document) :
    host.apply sink = host ∨
      (host.apply sink).pool.state = host.emptied.applyEach sink.refresh host.pending ∧
        (host.apply sink).pool.running = host.pool.running := by
  unfold apply
  split
  · exact Or.inr ⟨rfl, rfl⟩
  · exact Or.inl rfl

theorem phase_perform_of_not_serving
    {host : Host Document}
    (stopped : host.phase ≠ .serving)
    (move : Move) :
    (host.perform decoder sink move).1.phase ≠ .serving := by
  cases move with
  | receive message => exact phase_receive_of_not_serving stopped message
  | pickUp sequence faulty | finish sequence => exact stopped
  | apply =>
      rw [perform, apply]
      split
      · next serving => exact absurd serving stopped
      · exact stopped

theorem lastSequence_perform
    (host : Host Document)
    (move : Move) :
    host.reparser.lastSequence ≤ (host.perform decoder sink move).1.reparser.lastSequence := by
  cases move with
  | receive message =>
      simp only [perform]
      rcases @receive_cases _ decoder sink host message with ⟨edit, _, same⟩ | ⟨_, same⟩
      · rw [same]
        exact lastSequence_edit host edit
      · rw [reparser, reparser, same]
  | pickUp sequence faulty =>
      simp only [perform, reparser]
      rcases pickUp_cases host.pool sequence faulty with same | ⟨_, _, same⟩
      · rw [same]
      · rw [same]
        exact Nat.le_refl _
  | finish sequence =>
      simp only [perform, reparser]
      rcases finish_cases host.pool sequence with same | ⟨_, _, same⟩
      · rw [same]
      · rw [same]
        exact Nat.le_refl _
  | apply =>
      simp only [perform]
      rcases @apply_cases _ sink host with same | ⟨state, _⟩
      · rw [same]
      · obtain ⟨documents, same⟩ :=
          Reparser.Applied.reparser_applyEach sink.refresh host.emptied host.pending
        rw [reparser, reparser, state, same]
        exact Nat.le_refl _

/-- The numbers of submissions go up along a run. -/
theorem lastSequence_reach
    (host : Host Document)
    (moves : List Move) :
    host.reparser.lastSequence ≤ (host.reach decoder sink moves).reparser.lastSequence := by
  induction moves generalizing host with
  | nil => exact Nat.le_refl _
  | cons move moves ih =>
      exact (lastSequence_perform host move).trans (ih (host.perform decoder sink move).1)

end Served

/-! ## What a history says -/

section Reached

variable {Index : Type} (decoder : Decoder) (lines : Lines Index) (coalesce : Bool)

/-- The host that moves reach from no open documents. -/
def reached (moves : List Move) : Host (IndexedDocument Index) :=
  (Host.new coalesce).reach decoder (.indexed lines) moves

/-- The number of the last submission in some moves. -/
def submissions (moves : List Move) : Nat :=
  (reached decoder lines coalesce moves).reparser.lastSequence

/-- A text was submitted for a document and got a number. -/
def Issued (moves : List Move) (uri : String) (snapshot : Snapshot) : Prop :=
  ∃ before move after edit, moves = before ++ move :: after ∧
    (reached decoder lines coalesce before).served? decoder move = some edit ∧
    edit.uri = uri ∧ edit.text? = some snapshot.text ∧
    snapshot.number = submissions decoder lines coalesce before + 1 ∧
    submissions decoder lines coalesce (before ++ [move]) = snapshot.number

/--
The numbers that a document must not fall below: that of the next submission where it is opened
or closed, and that of the text that it shows, before some move.
-/
inductive Bar (moves : List Move) (uri : String) : Nat → Prop where
  | reset
      {before : List Move}
      {move : Move}
      {after : List Move}
      {edit : Edit}
      (cut : moves = before ++ move :: after)
      (served : (reached decoder lines coalesce before).served? decoder move = some edit)
      (here : edit.uri = uri)
      (resets : edit.resets = true) :
      Bar moves uri (submissions decoder lines coalesce before + 1)
  | shown
      {before : List Move}
      {move : Move}
      {after : List Move}
      {document : IndexedDocument Index}
      (cut : moves = before ++ move :: after)
      (isOpen : (reached decoder lines coalesce before).documents.get? uri = some document) :
      Bar moves uri document.snapshot.number

variable {decoder lines coalesce} {moves : List Move} {uri : String}

theorem reached_append_singleton
    (moves : List Move)
    (move : Move) :
    reached decoder lines coalesce (moves ++ [move]) =
      ((reached decoder lines coalesce moves).perform decoder (.indexed lines) move).1 := by
  rw [reached, reach_append]
  rfl

theorem submissions_append (moves more : List Move) :
    submissions decoder lines coalesce moves ≤
      submissions decoder lines coalesce (moves ++ more) := by
  rw [submissions, submissions, reached, reached, reach_append]
  exact lastSequence_reach _ more

theorem Issued.append
    {snapshot : Snapshot}
    (issued : Issued decoder lines coalesce moves uri snapshot)
    (more : List Move) :
    Issued decoder lines coalesce (moves ++ more) uri snapshot := by
  obtain ⟨before, move, after, edit, rfl, facts⟩ := issued
  exact ⟨before, move, after ++ more, edit, by simp, facts⟩

/-- Numbers are given in order, so one that was given is not behind the last. -/
theorem Issued.number_le
    {snapshot : Snapshot}
    (issued : Issued decoder lines coalesce moves uri snapshot) :
    snapshot.number ≤ submissions decoder lines coalesce moves := by
  obtain ⟨before, move, after, edit, rfl, _, _, _, _, last⟩ := issued
  have later := @submissions_append _ decoder lines coalesce (before ++ [move]) after
  rw [← List.append_cons] at later
  exact last ▸ later

/-- A number stands for one text of one document. -/
theorem Issued.unique
    {other : String}
    {snapshot second : Snapshot}
    (issued : Issued decoder lines coalesce moves uri snapshot)
    (again : Issued decoder lines coalesce moves other second)
    (same : snapshot.number = second.number) :
    uri = other ∧ snapshot.text = second.text := by
  obtain ⟨before, move, after, edit, rfl, served, rfl, text, number, last⟩ := issued
  obtain ⟨before', move', after', edit', cut, served', rfl, text', number', last'⟩ := again
  have first : submissions decoder lines coalesce before' =
      submissions decoder lines coalesce before := by
    omega
  rcases cut_cases cut with ⟨rfl, rfl⟩ | ⟨between, rfl⟩ | ⟨between, rfl⟩
  · rw [served] at served'
    cases served'
    exact ⟨rfl, Option.some.inj (text.symm.trans text')⟩
  · have later := @submissions_append _ decoder lines coalesce (before ++ [move]) between
    rw [← List.append_cons] at later
    omega
  · have later := @submissions_append _ decoder lines coalesce (before' ++ [move']) between
    rw [← List.append_cons] at later
    omega

/-- A served move that submits a text gives it the next number. -/
theorem issued_of_served
    {move : Move}
    {edit : Edit}
    {text : Text}
    (served : (reached decoder lines coalesce moves).served? decoder move = some edit)
    (submits : edit.text? = some text)
    (counted : submissions decoder lines coalesce (moves ++ [move]) =
      submissions decoder lines coalesce moves + 1) :
    Issued decoder lines coalesce (moves ++ [move]) edit.uri
      ⟨submissions decoder lines coalesce moves + 1, text⟩ :=
  ⟨moves, move, [], edit, rfl, served, rfl, submits, rfl, counted⟩

/-- One more move raises the bars to what was shown before it, or resets the document. -/
theorem Bar.cases
    {move : Move}
    {bar : Nat}
    (isBar : Bar decoder lines coalesce (moves ++ [move]) uri bar) :
    Bar decoder lines coalesce moves uri bar ∨
      (∃ edit, (reached decoder lines coalesce moves).served? decoder move = some edit ∧
        edit.uri = uri ∧ edit.resets = true ∧ bar = submissions decoder lines coalesce moves + 1) ∨
      ∃ document, (reached decoder lines coalesce moves).documents.get? uri = some document ∧
        bar = document.snapshot.number := by
  cases isBar with
  | reset cut served here resets =>
      rcases cut_append_singleton cut with ⟨rfl, rfl⟩ | ⟨rest, earlier⟩
      · exact Or.inr (Or.inl ⟨_, served, here, resets, rfl⟩)
      · exact Or.inl (.reset earlier served here resets)
  | shown cut isOpen =>
      rcases cut_append_singleton cut with ⟨rfl, rfl⟩ | ⟨rest, earlier⟩
      · exact Or.inr (Or.inr ⟨_, isOpen, rfl⟩)
      · exact Or.inl (.shown earlier isOpen)

/-- A document was opened by some move and not asked to be closed since. -/
def OpenSince
    (decoder : Decoder)
    (moves : List Move)
    (uri : String) :
    Prop :=
  ∃ before move after text, moves = before ++ move :: after ∧
    move.edit? decoder = some (.opening uri text) ∧
    ∀ other ∈ after, other.edit? decoder ≠ some (.closing uri)

theorem OpenSince.append
    {move : Move}
    (since : OpenSince decoder moves uri)
    (stays : move.edit? decoder ≠ some (.closing uri)) :
    OpenSince decoder (moves ++ [move]) uri := by
  obtain ⟨before, first, after, text, rfl, opens, lasting⟩ := since
  refine ⟨before, first, after ++ [move], text, by simp, opens, ?_⟩
  intro other member
  rcases List.mem_append.mp member with early | last
  · exact lasting other early
  · rw [List.mem_singleton.mp last]
    exact stays

/-- A careful client does not open a document once more that it has not closed. -/
theorem OpenSince.not_opening
    {move : Move}
    {text : Text}
    (since : OpenSince decoder moves uri)
    (careful : Careful decoder (messages (moves ++ [move]))) :
    move.edit? decoder ≠ some (.opening uri text) := by
  obtain ⟨before, first, after, earlier, rfl, opens, lasting⟩ := since
  intro reopens
  obtain ⟨message, received, asks⟩ := Option.bind_eq_some_iff.mp opens
  obtain ⟨again, receivedAgain, asksAgain⟩ := Option.bind_eq_some_iff.mp reopens
  have whole : messages (before ++ first :: after ++ [move]) =
      messages before ++ message :: (messages after ++ again :: []) := by
    simp [messages, List.filterMap_append, received, receivedAgain]
  obtain ⟨closing, between, closes⟩ :=
    careful _ _ _ _ _ uri earlier text whole asks asksAgain
  obtain ⟨other, inside, brings⟩ := List.mem_filterMap.mp between
  refine lasting other inside ?_
  rw [Move.edit?, brings]
  exact closes

end Reached

end Host

end LuaFold.Server
