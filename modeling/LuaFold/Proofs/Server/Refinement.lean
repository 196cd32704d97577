import LuaFold.Proofs.Server.Run
import LuaFold.Proofs.Server.Trail

/-!
# A host against a plain table of texts

A host mirrors the texts of the reference server if its documents do, with what is on its way
through its workers.  Every move keeps this, whatever it is, and a host that has settled answers as
the reference server does.  So in a prompt run the two give the same responses.
-/

namespace LuaFold.Server

namespace Host

variable {Document : Type} {decoder : Decoder} {sink : Sink Document}
  {Holds : Document → Snapshot → Prop} {texts : Texts} {host : Host Document}

/-- A host in service that mirrors texts. -/
structure Reflects
    (sink : Sink Document)
    (Holds : Document → Snapshot → Prop)
    (texts : Texts)
    (host : Host Document) :
    Prop where
  serving : host.phase = .serving
  mirrors : Mirrors sink Holds texts host.pool.state host.traffic

theorem reflects_new
    (coalesce : Bool) :
    (new coalesce : Host Document).Reflects sink Holds fun _ => none :=
  ⟨rfl, mirrors_new coalesce⟩

theorem Reflects.pickUp
    (reflects : host.Reflects sink Holds texts)
    (sequence : Nat) :
    (host.perform decoder sink (.pickUp sequence false)).1.Reflects sink Holds texts := by
  refine ⟨reflects.serving, ?_⟩
  simp only [perform, traffic, reparser]
  rcases pickUp_cases host.pool sequence false with same | ⟨submission, queued, same⟩
  · rw [same]
    exact reflects.mirrors
  · rw [same]
    exact (reflects.mirrors.start queued).of_eq rfl rfl rfl rfl

theorem Reflects.finish
    (reflects : host.Reflects sink Holds texts)
    (sequence : Nat) :
    (host.perform decoder sink (.finish sequence)).1.Reflects sink Holds texts := by
  refine ⟨reflects.serving, ?_⟩
  simp only [perform, traffic, reparser]
  rcases finish_cases host.pool sequence with same | ⟨cycle, running, same⟩
  · rw [same]
    exact reflects.mirrors
  · rw [same]
    exact (reflects.mirrors.send running).of_eq rfl rfl rfl rfl

theorem Reflects.apply
    (keeps : sink.Keeps Holds)
    (reflects : host.Reflects sink Holds texts) :
    (host.perform decoder sink .apply).1.Reflects sink Holds texts := by
  have serving : (host.apply sink).phase = .serving := by
    rw [Host.apply, reflects.serving]
  refine ⟨serving, ?_⟩
  simp only [perform]
  rcases @apply_cases _ sink host with same | ⟨state, running⟩
  · rw [same]
    exact reflects.mirrors
  · obtain ⟨documents, kept⟩ :=
      Reparser.Applied.reparser_applyEach sink.refresh host.emptied host.pending
    have emptied : Mirrors sink Holds texts host.emptied (host.traffic.awaiting host.pending) :=
      reflects.mirrors.thin.of_eq rfl rfl rfl rfl
    have traffic : (host.apply sink).traffic = host.traffic.awaiting [] := by
      rw [Host.traffic, reparser, state, kept, running]
      rfl
    rw [traffic, state]
    exact emptied.applyEach keeps

theorem Reflects.opening
    (keeps : sink.Keeps Holds)
    (reflects : host.Reflects sink Holds texts)
    (uri : String)
    (text : Text) :
    (host.edit sink (.opening uri text)).Reflects sink Holds
      (Function.update texts uri (some text)) := by
  refine ⟨reflects.serving, ?_⟩
  have created := keeps.created ⟨host.reparser.nextSequence, text⟩
  refine reflects.mirrors.submit (fun other => Table.get?_set _ _ _ _)
    ⟨_, created, Nat.le_refl _, fun _ => rfl, ?_⟩
  intro other second carries number
  have given := reflects.mirrors.orderly.given other second carries
  exact absurd number (Nat.ne_of_gt (Nat.lt_succ_of_le given))

theorem Reflects.change
    (reflects : host.Reflects sink Holds texts)
    (uri : String)
    (changes : List Text) :
    (host.edit sink (.change uri changes)).Reflects sink Holds
      (texts.edit (.change uri changes)) := by
  have present : host.documents.contains uri = (texts uri).isSome :=
    reflects.mirrors.isSome_views uri
  rw [Host.edit, didChange, Texts.edit]
  dsimp only
  rw [present]
  cases listed : texts uri with
  | none =>
      rw [Option.isSome_none, if_neg Bool.false_ne_true]
      cases changes.getLast? with
      | none => exact reflects
      | some text => exact reflects
  | some earlier =>
      rw [Option.isSome_some, if_pos rfl]
      cases changes.getLast? with
      | none => exact reflects
      | some text =>
          refine ⟨reflects.serving, ?_⟩
          obtain ⟨known, last, document, trails⟩ := reflects.mirrors.opened uri earlier listed
          obtain ⟨snapshot, holds, given, single⟩ :=
            reflects.mirrors.held uri document trails.shown
          have views : ∀ other, host.documents.get? other =
              if uri = other then some document else host.documents.get? other := by
            intro other
            split
            · next here => exact here ▸ trails.shown
            · rfl
          refine reflects.mirrors.submit views
            ⟨snapshot, holds, Nat.le_succ_of_le given, fun fresh => ?_, single⟩
          exact absurd fresh (Nat.ne_of_lt (Nat.lt_succ_of_le given))

theorem Reflects.edit
    (keeps : sink.Keeps Holds)
    (reflects : host.Reflects sink Holds texts)
    (edit : Edit) :
    (host.edit sink edit).Reflects sink Holds (texts.edit edit) := by
  cases edit with
  | opening uri text => exact reflects.opening keeps uri text
  | change uri changes => exact reflects.change uri changes
  | closing uri => exact ⟨reflects.serving, reflects.mirrors.close uri⟩

/-- A settled host answers as the reference server does. -/
theorem Reflects.answer
    (reflects : host.Reflects sink Holds texts)
    (settled : host.Settled)
    (method : String)
    (params : Json) :
    host.answer decoder sink method params = texts.answer decoder method params := by
  have mirrors := reflects.mirrors
  rw [show host.traffic = .none from settled] at mirrors
  rw [Host.answer, Texts.answer]
  cases Question.ofMethod? method with
  | none => rfl
  | some question =>
      dsimp only
      cases decoder.query question params with
      | error reason => rfl
      | ok uri =>
          dsimp only
          rw [documents]
          cases listed : texts uri with
          | none =>
              rw [mirrors.closed uri listed]
              rfl
          | some text =>
              obtain ⟨document, shown, shows⟩ := mirrors.shows listed
              rw [shown]
              exact congrArg Except.ok (shows question)

/-- A message finds a mirror of texts, gets the response of their server and leaves a mirror. -/
theorem Reflects.receive
    (keeps : sink.Keeps Holds)
    (reflects : host.Reflects sink Holds texts)
    {message : Message}
    (settled : message.isRequest = true → host.Settled)
    (stays : message.isShutdown = false) :
    (host.receive decoder sink message).host.Reflects sink Holds (texts.receive decoder message).1 ∧
      (host.receive decoder sink message).responses = (texts.receive decoder message).2.toList := by
  rw [receive_eq reflects.serving stays]
  cases message with
  | request id method params =>
      rw [Handlers.message, request_eq]
      dsimp only
      rw [reflects.answer (settled rfl) method params]
      exact ⟨reflects, rfl⟩
  | notification method params =>
      rw [Handlers.message, host_notification, responses_notification, Texts.receive]
      cases Edit.ofNotification? decoder method params with
      | none => exact ⟨reflects, rfl⟩
      | some edit => exact ⟨reflects.edit keeps edit, rfl⟩
  | response => exact ⟨reflects, rfl⟩

/-! ## Runs -/

/-- In a prompt run a mirror of texts gives the responses that their server gives. -/
theorem Reflects.responses
    (keeps : sink.Keeps Holds)
    (reflects : host.Reflects sink Holds texts)
    {moves : List Move}
    (sound : ∀ sequence, .pickUp sequence true ∉ moves)
    (prompt : host.Prompt decoder sink moves)
    (stays : ∀ message ∈ messages moves, message.isShutdown = false) :
    host.responses decoder sink moves = texts.responses decoder (messages moves) := by
  induction moves generalizing texts host with
  | nil => rfl
  | cons move moves ih =>
      obtain ⟨settled, prompt⟩ := prompt
      have later : ∀ sequence, .pickUp sequence true ∉ moves := fun sequence member =>
        sound sequence (List.mem_cons_of_mem _ member)
      cases move with
      | receive message =>
          obtain ⟨reflects, same⟩ := reflects.receive keeps settled
            (stays message List.mem_cons_self)
          have rest := ih reflects later prompt fun other member =>
            stays other (List.mem_cons_of_mem _ member)
          rw [Host.responses, messages_cons]
          exact congrArg₂ _ same rest
      | pickUp sequence faulty =>
          obtain rfl : faulty = false := by
            cases faulty with
            | false => rfl
            | true => exact absurd List.mem_cons_self (sound sequence)
          exact ih (reflects.pickUp sequence) later prompt stays
      | finish sequence => exact ih (reflects.finish sequence) later prompt stays
      | apply => exact ih (reflects.apply keeps) later prompt stays

theorem Reflects.responses_serves
    (keeps : sink.Keeps Holds)
    (reflects : host.Reflects sink Holds texts)
    {received : List Message}
    (stays : ∀ message ∈ received, message.isShutdown = false)
    {moves : List Move}
    (serves : host.Serves decoder sink received moves) :
    host.responses decoder sink moves = texts.responses decoder received := by
  have same := serves.received
  subst same
  exact reflects.responses keeps serves.sound serves.prompt stays

theorem atRest_new
    (coalesce : Bool) :
    (new coalesce : Host Document).AtRest :=
  ⟨rfl, rfl, rfl, List.nodup_nil⟩

end Host

/--
Before it is asked to shut down, a host gives in every prompt run the responses of the reference
server to the same messages: with coalescing or without, however many workers pick up and finish
submissions in whatever order, and however parameters are decoded.  So two such runs of the same
messages give the same responses.  Every list of messages has such a run, for which one worker is
enough, and the program, which runs and applies everything before it takes in a message, gives
these responses too.
-/
theorem responses_eq_reference
    {Index : Type}
    (decoder : Decoder)
    (lines : Lines Index)
    (coalesce : Bool)
    (received : List Message)
    (stays : ∀ message ∈ received, message.isShutdown = false) :
    (∃ moves,
      (Host.new coalesce).Serves decoder (.indexed lines) received moves ∧
        ∀ workers, 0 < workers →
          (Host.new coalesce).Within workers decoder (.indexed lines) moves) ∧
      (∀ moves,
        (Host.new coalesce).Serves decoder (.indexed lines) received moves →
          (Host.new coalesce).responses decoder (.indexed lines) moves =
            Texts.responses decoder (fun _ => none) received) ∧
      (∀ coalesce' moves moves',
        (Host.new coalesce).Serves decoder (.indexed lines) received moves →
          (Host.new coalesce').Serves decoder (.indexed lines) received moves' →
            (Host.new coalesce).responses decoder (.indexed lines) moves =
              (Host.new coalesce').responses decoder (.indexed lines) moves') ∧
      (Server.new coalesce).converse decoder received =
        Texts.responses decoder (fun _ => none) received := by
  have agrees : ∀ coalesce moves,
      (Host.new coalesce).Serves decoder (.indexed lines) received moves →
        (Host.new coalesce).responses decoder (.indexed lines) moves =
          Texts.responses decoder (fun _ => none) received := by
    intro coalesce moves serves
    exact (Host.reflects_new coalesce).responses_serves (Sink.keeps_indexed lines) stays serves
  refine ⟨?_, agrees coalesce, ?_, ?_⟩
  · obtain ⟨serves, within⟩ :=
      @Host.AtRest.serves_oneByOne _ decoder (.indexed lines) _ (Host.atRest_new coalesce) _ stays
    exact ⟨_, serves, fun workers some => within.mono some⟩
  · intro coalesce' moves moves' serves serves'
    rw [agrees coalesce moves serves, agrees coalesce' moves' serves']
  · have rest : (Host.new coalesce : Host OpenDocument).AtRest := Host.atRest_new coalesce
    have serves := (@Host.AtRest.serves_oneByOne _ decoder .plain _ rest _ stays).1
    have same := @Host.AtRest.responses_oneByOne decoder _ rest _ stays
    refine Eq.trans same.symm ?_
    exact (Host.reflects_new coalesce).responses_serves Sink.keeps_plain stays serves

/-- A document is opened with a text. -/
def opened (text : String) : Message :=
  .notification "textDocument/didOpen" (.object
    [("textDocument", .object
      [("uri", .string "file:///init.lua"),
       ("languageId", .string "lua"),
       ("version", .ofNat 1),
       ("text", .string text)])])

/-- The document is asked about. -/
def asked : Message :=
  .request (.ofNat 1) "textDocument/foldingRange" (.object
    [("textDocument", .object [("uri", .string "file:///init.lua")])])

/-- A document is opened three times while three workers are busy with it, and the worker that was
given the last text is done first. -/
def overtaking : List Host.Move :=
  [.receive (opened "function f() end"), .pickUp 1 false,
    .receive (opened "x = 1"), .receive (opened "function g() end"),
    .pickUp 3 false, .pickUp 2 false, .finish 3, .apply, .finish 2, .finish 1, .apply,
    .receive asked]

theorem responses_eq_reference_overtaking :
    (∀ message ∈ Host.messages overtaking, message.isShutdown = false) ∧
      (Host.new false).Serves .standard (.indexed textLines) (Host.messages overtaking)
        overtaking ∧
      (Host.new false).responses .standard (.indexed textLines) overtaking =
        [⟨.ofNat 1, .ok (Texts.document "function g() end".toList).foldingRanges⟩] := by
  have stays : ∀ message ∈ Host.messages overtaking, message.isShutdown = false := by
    decide +kernel
  have serves : (Host.new false).Serves .standard (.indexed textLines) (Host.messages overtaking)
      overtaking := by
    refine ⟨rfl, by simp [overtaking], ?_⟩
    simp only [Host.Prompt, overtaking]
    refine ⟨?_, ?_, ?_, ?_, ?_, ?_, ?_, ?_, ?_, ?_, ?_, fun _ => rfl, trivial⟩
    all_goals rintro ⟨⟩
  refine ⟨stays, serves, ?_⟩
  exact (responses_eq_reference .standard textLines false (Host.messages overtaking) stays).2.1
    overtaking serves

end LuaFold.Server
