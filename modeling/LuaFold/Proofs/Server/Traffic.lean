import LuaFold.Proofs.Server.History

/-!
# Texts on their way

A text that was submitted is in the queue, with one of the workers, or in a result that was not
applied yet.  Workers pick up submissions in any order, run side by side and finish in any order,
so nothing is known of the order in which texts arrive.  What is known is that every text on its
way has a number that tells it from all others, and that the submission which is the newest of its
document does not get lost.
-/

namespace LuaFold.Server

/-- What is on its way: the queue, what workers are running, and results not applied yet. -/
structure Traffic where
  queue : List (Submission String)
  running : List (Submission String × Bool)
  arrived : List (Update String)

namespace Traffic

/-- Nothing is on its way. -/
def none : Traffic :=
  ⟨[], [], []⟩

/-- A text of a document is on its way. -/
inductive Carries (traffic : Traffic) : String → Snapshot → Prop where
  | queued
      {submission : Submission String}
      (listed : submission ∈ traffic.queue) :
      Carries traffic submission.document ⟨submission.sequence, submission.text⟩
  | running
      {cycle : Submission String × Bool}
      (listed : cycle ∈ traffic.running) :
      Carries traffic cycle.1.document ⟨cycle.1.sequence, cycle.1.text⟩
  | arrived
      {update : Update String}
      (listed : update ∈ traffic.arrived) :
      Carries traffic update.document ⟨update.sequence, update.text⟩

/-- A submission is on its way, and what arrives of it are the regions of its text. -/
inductive Brings
    (traffic : Traffic)
    (submission : Submission String) :
    Prop where
  | queued (listed : submission ∈ traffic.queue)
  | running (listed : (submission, false) ∈ traffic.running)
  | arrived (listed : submission.update false ∈ traffic.arrived)

theorem Brings.carries
    {traffic : Traffic}
    {submission : Submission String}
    (brings : traffic.Brings submission) :
    traffic.Carries submission.document ⟨submission.sequence, submission.text⟩ := by
  cases brings with
  | queued listed => exact .queued listed
  | running listed => exact .running listed
  | arrived listed => exact .arrived listed

/-- A number stands for one text of one document, and no cycle fails. -/
structure Orderly
    (traffic : Traffic)
    (last : Nat) :
    Prop where
  given : ∀ uri snapshot, traffic.Carries uri snapshot → snapshot.number ≤ last
  single : ∀ uri snapshot other second,
    traffic.Carries uri snapshot → traffic.Carries other second →
      snapshot.number = second.number → uri = other ∧ snapshot.text = second.text
  apart : (traffic.queue.map Submission.sequence).Nodup
  sound : ∀ cycle ∈ traffic.running, cycle.2 = false
  genuine : ∀ update ∈ traffic.arrived, update.regions = foldRegions update.text

theorem orderly_none
    (last : Nat) :
    none.Orderly last := by
  refine ⟨?_, ?_, List.nodup_nil, ?_, ?_⟩
  · rintro _ _ (listed | listed | listed) <;> cases listed
  · rintro _ _ _ _ (listed | listed | listed) <;> cases listed
  · intro cycle listed
    cases listed
  · intro update listed
    cases listed

section Moves

variable {traffic : Traffic} {last : Nat} {submission newest : Submission String}

/-- Traffic that carries nothing new stays orderly. -/
theorem Orderly.lessen
    (orderly : traffic.Orderly last)
    {other : Traffic}
    (carried : ∀ uri snapshot, other.Carries uri snapshot → traffic.Carries uri snapshot)
    (queue : other.queue.Sublist traffic.queue)
    (sound : ∀ cycle ∈ other.running, cycle.2 = false)
    (genuine : ∀ update ∈ other.arrived, update.regions = foldRegions update.text) :
    other.Orderly last where
  given uri snapshot carries := orderly.given uri snapshot (carried uri snapshot carries)
  single uri snapshot uri' snapshot' carries carries' :=
    orderly.single uri snapshot uri' snapshot'
      (carried uri snapshot carries) (carried uri' snapshot' carries')
  apart := orderly.apart.sublist (queue.map _)
  sound := sound
  genuine := genuine

/-! ## Workers -/

/-- A worker takes a submission off the queue, and starts on it unless it is to be skipped. -/
def start
    (traffic : Traffic)
    (submission : Submission String)
    (skipped : Bool) :
    Traffic where
  queue := traffic.queue.filter fun other => other.sequence ≠ submission.sequence
  running := traffic.running ++ if skipped then [] else [(submission, false)]
  arrived := traffic.arrived

theorem carries_of_start
    {skipped : Bool}
    (queued : submission ∈ traffic.queue)
    {uri : String}
    {snapshot : Snapshot}
    (carries : (traffic.start submission skipped).Carries uri snapshot) :
    traffic.Carries uri snapshot := by
  rcases carries with listed | listed | listed
  · exact .queued (List.mem_filter.mp listed).1
  · rcases List.mem_append.mp listed with earlier | started
    · exact .running earlier
    · split at started
      · cases started
      · rw [List.mem_singleton.mp started]
        exact .queued queued
  · exact .arrived listed

theorem Orderly.start
    (orderly : traffic.Orderly last)
    (queued : submission ∈ traffic.queue)
    (skipped : Bool) :
    (traffic.start submission skipped).Orderly last := by
  refine orderly.lessen (fun _ _ => carries_of_start queued) List.filter_sublist ?_
    orderly.genuine
  intro cycle listed
  rcases List.mem_append.mp listed with earlier | started
  · exact orderly.sound cycle earlier
  · split at started
    · cases started
    · rw [List.mem_singleton.mp started]

/-- Only the submission that is picked up leaves the queue, and it leaves it for a worker. -/
theorem Brings.start
    (brings : traffic.Brings newest)
    (orderly : traffic.Orderly last)
    (queued : submission ∈ traffic.queue)
    {skipped : Bool}
    (kept : newest = submission → skipped = false) :
    (traffic.start submission skipped).Brings newest := by
  cases brings with
  | queued listed =>
      by_cases same : newest.sequence = submission.sequence
      · have picked : newest = submission :=
          List.inj_on_of_nodup_map orderly.apart listed queued same
        refine .running (List.mem_append_right _ ?_)
        rw [kept picked, picked]
        exact List.mem_singleton.mpr rfl
      · exact .queued (List.mem_filter.mpr ⟨listed, decide_eq_true same⟩)
  | running listed => exact .running (List.mem_append_left _ listed)
  | arrived listed => exact .arrived listed

/-- A worker sends the result of what it was running. -/
def send
    (traffic : Traffic)
    (cycle : Submission String × Bool) :
    Traffic where
  queue := traffic.queue
  running := traffic.running.filter fun other => other.1.sequence ≠ cycle.1.sequence
  arrived := traffic.arrived ++ [cycle.1.update cycle.2]

theorem carries_of_send
    {cycle : Submission String × Bool}
    (running : cycle ∈ traffic.running)
    {uri : String}
    {snapshot : Snapshot}
    (carries : (traffic.send cycle).Carries uri snapshot) :
    traffic.Carries uri snapshot := by
  rcases carries with listed | listed | listed
  · exact .queued listed
  · exact .running (List.mem_filter.mp listed).1
  · rcases List.mem_append.mp listed with earlier | sent
    · exact .arrived earlier
    · rw [List.mem_singleton.mp sent]
      exact .running running

theorem Orderly.send
    (orderly : traffic.Orderly last)
    {cycle : Submission String × Bool}
    (running : cycle ∈ traffic.running) :
    (traffic.send cycle).Orderly last := by
  refine orderly.lessen (fun _ _ => carries_of_send running) (List.Sublist.refl _)
    (fun other listed => orderly.sound other (List.mem_filter.mp listed).1) ?_
  intro update listed
  rcases List.mem_append.mp listed with earlier | sent
  · exact orderly.genuine update earlier
  · rw [List.mem_singleton.mp sent, orderly.sound cycle running]
    rfl

/-- A result does not say under which state its text was submitted. -/
theorem update_eq_of_single
    {other : Submission String}
    (same : submission.document = other.document ∧ submission.text = other.text)
    (number : submission.sequence = other.sequence)
    (faulty : Bool) :
    submission.update faulty = other.update faulty := by
  rw [Submission.update, Submission.update, same.1, same.2, number]

/-- What a worker was running arrives. -/
theorem Brings.send
    (brings : traffic.Brings newest)
    (orderly : traffic.Orderly last)
    {cycle : Submission String × Bool}
    (running : cycle ∈ traffic.running) :
    (traffic.send cycle).Brings newest := by
  cases brings with
  | queued listed => exact .queued listed
  | running listed =>
      by_cases same : newest.sequence = cycle.1.sequence
      · have single := orderly.single _ _ _ _ (.running listed) (.running running) same
        refine .arrived (List.mem_append_right _ (List.mem_singleton.mpr ?_))
        rw [orderly.sound cycle running]
        exact update_eq_of_single single same false
      · exact .running (List.mem_filter.mpr ⟨listed, decide_eq_true same⟩)
  | arrived listed => exact .arrived (List.mem_append_left _ listed)

/-! ## The owner -/

/-- A text is submitted. -/
def submit
    (traffic : Traffic)
    (submission : Submission String) :
    Traffic where
  queue := traffic.queue ++ [submission]
  running := traffic.running
  arrived := traffic.arrived

theorem carries_of_submit
    {uri : String}
    {snapshot : Snapshot}
    (carries : (traffic.submit submission).Carries uri snapshot) :
    traffic.Carries uri snapshot ∨
      uri = submission.document ∧ snapshot = ⟨submission.sequence, submission.text⟩ := by
  rcases carries with listed | listed | listed
  · rcases List.mem_append.mp listed with earlier | last
    · exact Or.inl (.queued earlier)
    · rw [List.mem_singleton.mp last]
      exact Or.inr ⟨rfl, rfl⟩
  · exact Or.inl (.running listed)
  · exact Or.inl (.arrived listed)

/-- A submission with the next number keeps the traffic orderly. -/
theorem Orderly.submit
    (orderly : traffic.Orderly last)
    (next : submission.sequence = last + 1) :
    (traffic.submit submission).Orderly (last + 1) := by
  have behind : ∀ uri snapshot, traffic.Carries uri snapshot →
      snapshot.number ≠ submission.sequence := by
    intro uri snapshot carries
    have given := orderly.given uri snapshot carries
    omega
  refine ⟨?_, ?_, ?_, orderly.sound, orderly.genuine⟩
  · intro uri snapshot carries
    rcases carries_of_submit carries with earlier | ⟨_, rfl⟩
    · exact Nat.le_succ_of_le (orderly.given uri snapshot earlier)
    · exact next.le
  · intro uri snapshot other second carries carriesSecond same
    rcases carries_of_submit carries with earlier | ⟨rfl, rfl⟩
    · rcases carries_of_submit carriesSecond with earlierSecond | ⟨rfl, rfl⟩
      · exact orderly.single uri snapshot other second earlier earlierSecond same
      · exact absurd same (behind uri snapshot earlier)
    · rcases carries_of_submit carriesSecond with earlierSecond | ⟨rfl, rfl⟩
      · exact absurd same.symm (behind other second earlierSecond)
      · exact ⟨rfl, rfl⟩
  · have fresh : submission.sequence ∉ traffic.queue.map Submission.sequence := by
      intro listed
      obtain ⟨other, queued, same⟩ := List.mem_map.mp listed
      exact behind _ _ (.queued queued) same
    simpa [Traffic.submit, List.nodup_append] using
      ⟨orderly.apart, fun other queued same => fresh (List.mem_map.mpr ⟨other, queued, same⟩)⟩

theorem Brings.submit
    (brings : traffic.Brings newest)
    (submission : Submission String) :
    (traffic.submit submission).Brings newest := by
  cases brings with
  | queued listed => exact .queued (List.mem_append_left _ listed)
  | running listed => exact .running listed
  | arrived listed => exact .arrived listed

/-! ## Batches -/

/-- Other results in place of those that arrived. -/
def awaiting
    (traffic : Traffic)
    (updates : List (Update String)) :
    Traffic :=
  { traffic with arrived := updates }

theorem carries_of_awaiting
    {updates : List (Update String)}
    (among : ∀ update ∈ updates, update ∈ traffic.arrived)
    {uri : String}
    {snapshot : Snapshot}
    (carries : (traffic.awaiting updates).Carries uri snapshot) :
    traffic.Carries uri snapshot := by
  rcases carries with listed | listed | listed
  · exact .queued listed
  · exact .running listed
  · exact .arrived (among _ listed)

theorem Orderly.awaiting
    (orderly : traffic.Orderly last)
    {updates : List (Update String)}
    (among : ∀ update ∈ updates, update ∈ traffic.arrived) :
    (traffic.awaiting updates).Orderly last :=
  orderly.lessen (fun _ _ => carries_of_awaiting among) (List.Sublist.refl _) orderly.sound
    fun update listed => orderly.genuine update (among update listed)

end Moves

end Traffic

end LuaFold.Server
