import LuaFold.Proofs.Reparse.Run

/-!
# What holds along a run

Everything submitted and not yet dealt with is in flight: received, running or queued.  Numbers
increase along it, so what is received is older than what is not.  The newest submission of a
state that has not been forgotten is never skipped, because the number kept for its generation
is its own; so it is in flight until its view has taken it.

Submissions under a state that was forgotten stay in flight.  They do no harm: their numbers
are not greater than the one a new state starts with.
-/

namespace LuaFold

namespace Reparser

variable {Document : Type} [DecidableEq Document]

/-! ## What is in flight -/

/-- The documents and numbers of what the worker still has to do, oldest first. -/
def unfinished (reparser : Reparser Document) : List (Document × Nat) :=
  (reparser.running?.map fun busy => (busy.1.document, busy.1.sequence)).toList ++
    reparser.queue.map fun submission => (submission.document, submission.sequence)

/-- The documents and numbers of what has not been applied, oldest first. -/
def inFlight (reparser : Reparser Document) : List (Document × Nat) :=
  reparser.received.map (fun update => (update.document, update.sequence)) ++
    reparser.unfinished

theorem inFlight_schedule
    (reparser : Reparser Document)
    (document : Document)
    (text : Text) :
    (reparser.schedule document text).inFlight =
      reparser.inFlight ++ [(document, reparser.nextSequence)] := by
  simp [inFlight, unfinished, schedule]

/--
A change that submits nothing: what is in flight can only get less, and documents keep the
generation they have for as long as they have a state.
-/
structure Recedes (before after : Reparser Document) : Prop where
  lastSequence : after.lastSequence = before.lastSequence
  newest : after.newest = before.newest
  inFlight : after.inFlight.Sublist before.inFlight
  generation : ∀ document known, after.documents.get? document = some known →
    ∃ earlier, before.documents.get? document = some earlier ∧
      known.generation = earlier.generation

theorem Recedes.refl (reparser : Reparser Document) : Recedes reparser reparser :=
  ⟨rfl, rfl, .refl _, fun _ known found => ⟨known, found, rfl⟩⟩

theorem recedes_forget
    (reparser : Reparser Document)
    (document : Document) :
    Recedes reparser (reparser.forget document) := by
  refine ⟨rfl, rfl, .refl _, ?_⟩
  intro other known found
  rw [forget, Table.get?_remove] at found
  split at found
  · cases found
  · exact ⟨known, found, rfl⟩

theorem recedes_pickUpFront
    (faulty : Nat → Bool)
    (reparser : Reparser Document) :
    Recedes reparser (reparser.pickUpFront faulty) := by
  rcases pickUpFront_cases faulty reparser with
    same | ⟨submission, queue, running, queued, ⟨_, skipped⟩ | started⟩
  · rw [same]
    exact .refl reparser
  · rw [skipped]
    refine ⟨rfl, rfl, ?_, fun _ known found => ⟨known, found, rfl⟩⟩
    simp [inFlight, unfinished, running, queued]
  · rw [started]
    refine ⟨rfl, rfl, ?_, fun _ known found => ⟨known, found, rfl⟩⟩
    simp [inFlight, unfinished, running, queued]

theorem recedes_finish (reparser : Reparser Document) :
    Recedes reparser reparser.finish := by
  rcases finish_cases reparser with same | ⟨submission, faulty, running, finished⟩
  · rw [same]
    exact .refl reparser
  · rw [finished]
    refine ⟨rfl, rfl, ?_, fun _ known found => ⟨known, found, rfl⟩⟩
    simp [inFlight, unfinished, running, Submission.update]

/-! ## Order -/

/--
The numbers in flight increase, and none is greater than the last one given.  Generations are
such numbers too, and no two documents share one.
-/
structure Orderly (reparser : Reparser Document) : Prop where
  increasing : (reparser.inFlight.map Prod.snd).Pairwise (· < ·)
  submitted : ∀ entry ∈ reparser.inFlight, entry.2 ≤ reparser.lastSequence
  generated : ∀ document known, reparser.documents.get? document = some known →
    known.generation ≤ reparser.lastSequence
  apart : ∀ document other known another, reparser.documents.get? document = some known →
    reparser.documents.get? other = some another → known.generation = another.generation →
    document = other

theorem orderly_new (coalesce : Bool) : Orderly (new coalesce : Reparser Document) := by
  constructor
  · exact List.Pairwise.nil
  · intro entry member
    cases member
  · intro document known found
    cases found
  · intro document other known another found
    cases found

theorem Orderly.recede
    {before after : Reparser Document}
    (orderly : Orderly before)
    (recedes : Recedes before after) :
    Orderly after := by
  constructor
  · exact orderly.increasing.sublist (recedes.inFlight.map Prod.snd)
  · intro entry member
    rw [recedes.lastSequence]
    exact orderly.submitted entry (recedes.inFlight.subset member)
  · intro document known found
    rcases recedes.generation document known found with ⟨earlier, found, same⟩
    rw [same, recedes.lastSequence]
    exact orderly.generated document earlier found
  · intro document other known another found found' same
    rcases recedes.generation document known found with ⟨first, found, first_same⟩
    rcases recedes.generation other another found' with ⟨second, found', second_same⟩
    apply orderly.apart document other first second found found'
    rw [← first_same, same, second_same]

/-- The state that a document has after a submission: the one it had, or one of the number. -/
theorem get?_documents_schedule
    (reparser : Reparser Document)
    (document other : Document)
    (text : Text)
    (known : DocumentState)
    (found : (reparser.schedule document text).documents.get? other = some known) :
    reparser.documents.get? other = some known ∨
      document = other ∧ known.generation = reparser.nextSequence := by
  rw [schedule, Table.get?_set] at found
  split at found
  · next same =>
    cases found
    rw [stateFor]
    subst same
    cases earlier : reparser.documents.get? document with
    | none => exact Or.inr ⟨rfl, rfl⟩
    | some state => exact Or.inl rfl
  · exact Or.inl found

theorem Orderly.schedule
    {reparser : Reparser Document}
    (orderly : Orderly reparser)
    (document : Document)
    (text : Text) :
    Orderly (reparser.schedule document text) := by
  have next : (reparser.schedule document text).lastSequence = reparser.lastSequence + 1 := rfl
  constructor
  · rw [inFlight_schedule, List.map_append, List.pairwise_append]
    refine ⟨orderly.increasing, List.pairwise_singleton _ _, ?_⟩
    intro number earlier last member
    rcases List.mem_map.mp earlier with ⟨entry, listed, rfl⟩
    rw [List.mem_singleton.mp member]
    exact Nat.lt_succ_of_le (orderly.submitted entry listed)
  · intro entry member
    rw [inFlight_schedule] at member
    rcases List.mem_append.mp member with earlier | last
    · exact Nat.le_succ_of_le (orderly.submitted entry earlier)
    · rw [List.mem_singleton.mp last]
      exact Nat.le_refl _
  · intro other known found
    rcases get?_documents_schedule reparser document other text known found with
      old | ⟨_, new⟩
    · exact Nat.le_succ_of_le (orderly.generated other known old)
    · exact Nat.le_of_eq new
  · intro first second known another found found' same
    rcases get?_documents_schedule reparser document first text known found with
      old | ⟨rfl, new⟩
    · rcases get?_documents_schedule reparser document second text another found' with
        old' | ⟨rfl, new'⟩
      · exact orderly.apart first second known another old old' same
      · -- a new generation is greater than every known one
        have bound := orderly.generated first known old
        rw [same, new', nextSequence] at bound
        omega
    · rcases get?_documents_schedule reparser document second text another found' with
        old' | ⟨rfl, _⟩
      · have bound := orderly.generated second another old'
        rw [← same, new, nextSequence] at bound
        omega
      · rfl

theorem Orderly.received_lt
    {reparser : Reparser Document}
    (orderly : Orderly reparser)
    {update : Update Document}
    (received : update ∈ reparser.received)
    {entry : Document × Nat}
    (unfinished : entry ∈ reparser.unfinished) :
    update.sequence < entry.2 := by
  have increasing := orderly.increasing
  rw [inFlight, List.map_append, List.map_map, List.pairwise_append] at increasing
  exact increasing.2.2 _ (List.mem_map_of_mem received) _ (List.mem_map_of_mem unfinished)

theorem Orderly.received_unique
    {reparser : Reparser Document}
    (orderly : Orderly reparser)
    {update other : Update Document}
    (received : update ∈ reparser.received)
    (received' : other ∈ reparser.received)
    (same : update.sequence = other.sequence) :
    update = other := by
  have increasing := orderly.increasing
  rw [inFlight, List.map_append, List.map_map, List.pairwise_append] at increasing
  have distinct : (reparser.received.map Update.sequence).Nodup :=
    increasing.1.imp Nat.ne_of_lt
  exact List.inj_on_of_nodup_map distinct received received' same

end Reparser

end LuaFold
