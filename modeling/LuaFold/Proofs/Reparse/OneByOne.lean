import LuaFold.Proofs.Reparse.Numbering
import LuaFold.Reparse.Session
import Mathlib.Data.List.Pairwise

/-!
# A batch and its updates one by one

A batch hands a document its newest update only, while single updates reach it one after the
other, as long as each is newer than the one before.  For a view that shows nothing but what it
was given last this makes no difference.  Nor does the order in which the table of the newest
updates is gone through, since no two of them are for the same document.
-/

namespace LuaFold

namespace Reparser

variable {Document : Type} [DecidableEq Document] {View : Type} [Display View] {Content : Type}

/-- What is shown after a refresh does not depend on what the view was before. -/
def Replaces (shown : View → Content) : Prop :=
  ∀ first second text regions entries,
    shown (Display.refresh first text regions entries) =
      shown (Display.refresh second text regions entries)

/-! ## One document -/

/-- The state of a document with what its view shows. -/
def shownLook
    (shown : View → Content)
    (look : Option DocumentState × Option View) :
    Option DocumentState × Option Content :=
  (look.1, look.2.map shown)

/-- What a document becomes that is handed one update or none. -/
def settle (look : Option DocumentState × Option View) :
    Option (Update Document) → Option DocumentState × Option View
  | some update => advance update look
  | none => look

section Document

variable {shown : View → Content}

omit [DecidableEq Document] in
/-- An update does not see more of a view than is shown of it. -/
theorem shownLook_advance_congr
    (replaces : Replaces shown)
    (update : Update Document)
    {first second : Option DocumentState × Option View}
    (alike : shownLook shown first = shownLook shown second) :
    shownLook shown (advance update first) = shownLook shown (advance update second) := by
  obtain ⟨state?, view?⟩ := first
  obtain ⟨other?, another?⟩ := second
  obtain ⟨rfl, views⟩ := Prod.mk.inj alike
  cases state? with
  | none => exact Prod.ext rfl views
  | some known =>
      cases view? with
      | none =>
          cases another? with
          | none => rfl
          | some another => cases views
      | some view =>
          cases another? with
          | none => cases views
          | some another =>
              by_cases stale : update.sequence ≤ known.applied
              · simpa [advance, stale, shownLook] using views
              · simpa [advance, stale, shownLook] using replaces view another _ _ _

omit [DecidableEq Document] in
/-- One more update makes of a document what the newer of it and the one before makes of it. -/
theorem shownLook_advance_settle
    (replaces : Replaces shown)
    (look : Option DocumentState × Option View)
    (kept? : Option (Update Document))
    (update : Update Document) :
    shownLook shown (advance update (settle look kept?)) =
      shownLook shown (settle look (newer kept? update)) := by
  cases kept? with
  | none => rfl
  | some earlier =>
      obtain ⟨state?, view?⟩ := look
      cases state? with
      | none => by_cases older : update.sequence ≤ earlier.sequence <;>
          simp [newer, older, settle, advance]
      | some known =>
          cases view? with
          | none => by_cases older : update.sequence ≤ earlier.sequence <;>
              simp [newer, older, settle, advance]
          | some view =>
              by_cases older : update.sequence ≤ earlier.sequence
              · -- What was stale for the earlier update is stale behind it too.
                by_cases stale : earlier.sequence ≤ known.applied
                · have late : update.sequence ≤ known.applied := Nat.le_trans older stale
                  simp [newer, older, settle, advance, stale, late]
                · simp [newer, older, settle, advance, stale]
              · by_cases stale : earlier.sequence ≤ known.applied
                · simp [newer, older, settle, advance, stale]
                · have taken : ¬ update.sequence ≤ known.applied := by omega
                  simpa [newer, older, settle, advance, stale, taken, shownLook]
                    using replaces _ _ _ _ _

omit [DecidableEq Document] in
/-- Of updates applied one after the other only the newest is seen in the end. -/
theorem shownLook_foldl_advance
    (replaces : Replaces shown)
    (look : Option DocumentState × Option View)
    (updates : List (Update Document)) :
    shownLook shown (updates.foldl (fun look update => advance update look) look) =
      shownLook shown (settle look (newestOf updates)) := by
  induction updates using List.reverseRecOn with
  | nil => rfl
  | append_singleton updates update ih =>
      rw [List.foldl_append, List.foldl_cons, List.foldl_nil, newestOf, List.foldl_append,
        ← newestOf, List.foldl_cons, List.foldl_nil, ← shownLook_advance_settle replaces]
      exact shownLook_advance_congr replaces update ih

end Document

/-! ## What views take -/

/-- The count of a run of updates is the number of those that views take. -/
theorem Applied.snd_applyAll
    (state : Applied Document View)
    (updates : List (Update Document)) :
    (state.applyAll updates).2 = (state.taken updates).length := by
  have counted : ∀ (state : Applied Document View) (count : Nat),
      (updates.foldl
        (fun reached update => ((reached.1.apply update).1,
          if (reached.1.apply update).2 then reached.2 + 1 else reached.2))
        (state, count)).2 = count + (state.taken updates).length := by
    induction updates with
    | nil => exact fun _ _ => rfl
    | cons update updates ih =>
        intro state count
        rw [List.foldl_cons, ih, Applied.taken, List.length_append]
        by_cases taken : (state.apply update).2 = true
        · simp [taken, Nat.add_assoc, Nat.add_comm 1]
        · simp [taken]
  exact (counted state 0).trans (Nat.zero_add _)

/-- With at most one update of each document, what is taken does not depend on the order. -/
theorem Applied.taken_of_single
    (state : Applied Document View)
    {updates : List (Update Document)}
    (single : (updates.map Update.document).Nodup) :
    state.taken updates =
      updates.filter fun update => takes update (state.look update.document) := by
  induction updates generalizing state with
  | nil => rfl
  | cons update updates ih =>
      obtain ⟨fresh, single⟩ := List.nodup_cons.mp single
      have later : updates.filter
            (fun other => takes other ((state.apply update).1.look other.document)) =
          updates.filter fun other => takes other (state.look other.document) := by
        refine List.filter_congr fun other member => ?_
        have different : update.document ≠ other.document := fun same =>
          fresh (same ▸ List.mem_map_of_mem member)
        rw [Applied.look_apply, if_neg different]
      rw [Applied.taken, ih _ single, later, Applied.snd_apply, List.filter_cons]
      by_cases taken : takes update (state.look update.document) = true <;> simp [taken]

/-! ## The order of a batch -/

/-- An order in which the newest updates of a batch can be applied. -/
structure Arrangement (updates : List (Update Document)) where
  order : List (Update Document)
  listed : order.Perm (newestUpdates updates).values

/-- The order of the table itself. -/
def Arrangement.ofTable (updates : List (Update Document)) : Arrangement updates :=
  ⟨(newestUpdates updates).values, .refl _⟩

/-- Apply the newest update of each document in some order. -/
def Applied.applyArranged
    (state : Applied Document View)
    {updates : List (Update Document)}
    (arrangement : Arrangement updates) :
    Applied Document View × Nat :=
  state.applyAll arrangement.order

namespace Arrangement

variable {updates : List (Update Document)}

theorem single (arrangement : Arrangement updates) :
    (arrangement.order.map Update.document).Nodup :=
  (arrangement.listed.map Update.document).nodup_iff.mpr (newest_newestUpdates updates).single

/-- However it is arranged, a batch has one update of a document at most. -/
theorem updatesOf_order
    (arrangement : Arrangement updates)
    (document : Document) :
    updatesOf document arrangement.order =
      (newestOf (updatesOf document updates)).toList := by
  have listed : (updatesOf document arrangement.order).Perm
      (newestOf (updatesOf document updates)).toList := by
    rw [← updatesOf_newestUpdates]
    exact arrangement.listed.filter _
  cases newest : newestOf (updatesOf document updates) with
  | none =>
      rw [newest] at listed
      exact List.perm_nil.mp listed
  | some update =>
      rw [newest] at listed
      exact List.perm_singleton.mp listed

/-- A batch hands a document its newest update. -/
theorem look_applyArranged
    (arrangement : Arrangement updates)
    (state : Applied Document View)
    (document : Document) :
    (state.applyArranged arrangement).1.look document =
      settle (state.look document) (newestOf (updatesOf document updates)) := by
  rw [Applied.applyArranged, Applied.look_applyAll_eq_foldl, arrangement.updatesOf_order]
  cases newestOf (updatesOf document updates) <;> rfl

/-- No document takes two updates of a batch. -/
theorem nodup_taken
    (arrangement : Arrangement updates)
    (state : Applied Document View) :
    ((state.taken arrangement.order).map Update.document).Nodup :=
  arrangement.single.sublist ((state.taken_sublist arrangement.order).map Update.document)

end Arrangement

/-! ## The order of the updates -/

/-- The updates are not for the same document under the same number. -/
def Apart (first second : Update Document) : Prop :=
  first.document = second.document → first.sequence ≠ second.sequence

instance : Std.Symm (@Apart Document) where
  symm _ _ apart same := (apart same.symm).symm

section Rearranged

variable {updates other : List (Update Document)}

omit [DecidableEq Document] in
theorem eq_of_apart
    (distinct : updates.Pairwise Apart)
    {first second : Update Document}
    (here : first ∈ updates)
    (there : second ∈ updates)
    (document : first.document = second.document)
    (sequence : first.sequence = second.sequence) :
    first = second := by
  by_contra different
  exact distinct.forall here there different document sequence

theorem get?_newestUpdates_of_perm
    (distinct : updates.Pairwise Apart)
    (rearranged : other.Perm updates)
    {document : Document}
    {update : Update Document}
    (found : (newestUpdates other).get? document = some update) :
    (newestUpdates updates).get? document = some update := by
  have before := newest_newestUpdates updates
  have behind := newest_newestUpdates other
  obtain ⟨listed, same⟩ := behind.found document update found
  obtain ⟨kept, keeps, bound⟩ := before.greatest update (rearranged.mem_iff.mp listed)
  rw [same] at keeps
  obtain ⟨member, sameKept⟩ := before.found document kept keeps
  -- Each is the greatest of one list and an element of the other, so they share a number.
  obtain ⟨_, again, least⟩ := behind.greatest kept (rearranged.mem_iff.mpr member)
  rw [sameKept, found] at again
  cases again
  rw [keeps, eq_of_apart distinct member (rearranged.mem_iff.mp listed)
    (sameKept.trans same.symm) (Nat.le_antisymm least bound)]

/-- The newest update of a document does not depend on the order of the updates. -/
theorem newestUpdates_of_perm
    (distinct : updates.Pairwise Apart)
    (rearranged : other.Perm updates)
    (document : Document) :
    (newestUpdates other).get? document = (newestUpdates updates).get? document :=
  Option.ext fun _ =>
    ⟨get?_newestUpdates_of_perm distinct rearranged,
      get?_newestUpdates_of_perm
        (rearranged.symm.pairwise distinct fun apart => Std.Symm.symm _ _ apart)
        rearranged.symm⟩

theorem mem_values_newestUpdates {update : Update Document} :
    update ∈ (newestUpdates updates).values ↔
      (newestUpdates updates).get? update.document = some update := by
  rw [← Option.mem_toList, get?_newestUpdates, ← updatesOf_newestUpdates, updatesOf,
    List.mem_filter]
  simp

/-- Rearranged updates are thinned out to the same ones. -/
theorem values_newestUpdates_perm
    (distinct : updates.Pairwise Apart)
    (rearranged : other.Perm updates) :
    (newestUpdates other).values.Perm (newestUpdates updates).values := by
  refine (List.perm_ext_iff_of_nodup (newest_newestUpdates other).single.of_map
    (newest_newestUpdates updates).single.of_map).mpr fun update => ?_
  rw [mem_values_newestUpdates, mem_values_newestUpdates,
    newestUpdates_of_perm distinct rearranged]

end Rearranged

/-! ## Batches -/

/--
A batch does what its updates do one by one.  In whatever order the newest updates are applied,
every document gets the same state, and its view shows the same, as when all the updates are
applied in order.  No view is refreshed twice, and the count is the number of views that are.  If
no two updates of a document share a number, nothing changes when the updates are rearranged.
-/
theorem applyBatch_agrees
    {shown : View → Content}
    (replaces : Replaces shown)
    (state : Applied Document View)
    (updates : List (Update Document)) :
    state.applyBatch updates = state.applyArranged (.ofTable updates) ∧
      (∀ arrangement : Arrangement updates,
        let batch := state.applyArranged arrangement
        let taken := state.taken arrangement.order
        (∀ document, shownLook shown (batch.1.look document) =
            shownLook shown ((state.applyAll updates).1.look document)) ∧
          (∀ document, batch.1.views.get? document =
            (state.views.get? document).map (refreshAll · (updatesOf document taken))) ∧
          (taken.map Update.document).Nodup ∧
          batch.2 = taken.length) ∧
      (updates.Pairwise Apart → ∀ other, other.Perm updates →
        ∀ (arrangement : Arrangement updates) (rearrangement : Arrangement other),
          (state.applyArranged rearrangement).2 = (state.applyArranged arrangement).2 ∧
            ∀ document, (state.applyArranged rearrangement).1.look document =
              (state.applyArranged arrangement).1.look document) := by
  refine ⟨rfl, fun arrangement => ⟨?_, ?_, ?_, ?_⟩, ?_⟩
  · intro document
    rw [arrangement.look_applyArranged, Applied.look_applyAll_eq_foldl,
      shownLook_foldl_advance replaces]
  · exact state.get?_views_applyAll arrangement.order
  · exact arrangement.nodup_taken state
  · exact state.snd_applyAll arrangement.order
  · intro distinct other rearranged arrangement rearrangement
    refine ⟨?_, fun document => ?_⟩
    · have orders : rearrangement.order.Perm arrangement.order :=
        (rearrangement.listed.trans (values_newestUpdates_perm distinct rearranged)).trans
          arrangement.listed.symm
      rw [Applied.applyArranged, Applied.applyArranged, Applied.snd_applyAll,
        Applied.snd_applyAll, state.taken_of_single arrangement.single,
        state.taken_of_single rearrangement.single]
      exact (orders.filter _).length_eq
    · rw [rearrangement.look_applyArranged, arrangement.look_applyArranged,
        ← get?_newestUpdates, ← get?_newestUpdates, newestUpdates_of_perm distinct rearranged]

/-- What a recorder shows, apart from how often that was replaced. -/
def recorded (recorder : Recorder) : Option Text × List Region × List OutlineEntry :=
  (recorder.text?, recorder.regions, recorder.outline)

/-- A document that has shown its second text, one without a view, and a view without a document. -/
def uneven : Applied Nat Recorder :=
  ⟨{ Reparser.new true with documents := ⟨[(0, ⟨1, 2⟩), (1, ⟨2, 1⟩)]⟩ },
    ⟨[(0, .blank), (2, .blank)]⟩⟩

/-- Two new updates of a document and one that is stale, in between those of other documents. -/
def mixed : List (Update Nat) :=
  [⟨0, 3, ['x'], []⟩, ⟨1, 4, [], []⟩, ⟨0, 2, ['z'], []⟩, ⟨2, 9, [], []⟩, ⟨0, 5, ['y'], []⟩]

theorem applyBatch_agrees_mixed :
    Replaces recorded ∧
      mixed.Pairwise Apart ∧
      ((uneven.applyAll mixed).2 = 2 ∧ (uneven.applyBatch mixed).2 = 1) ∧
      (∀ document, shownLook recorded ((uneven.applyBatch mixed).1.look document) =
        shownLook recorded ((uneven.applyAll mixed).1.look document)) ∧
      (uneven.applyBatch mixed.reverse).2 = 1 ∧
      ∀ document, (uneven.applyBatch mixed.reverse).1.look document =
        (uneven.applyBatch mixed).1.look document := by
  have replaces : Replaces recorded := fun _ _ _ _ _ => rfl
  have distinct : mixed.Pairwise Apart := by simp [mixed, Apart]
  obtain ⟨arranged, agrees, rearranges⟩ := applyBatch_agrees replaces uneven mixed
  obtain ⟨count, looks⟩ :=
    rearranges distinct mixed.reverse (List.reverse_perm mixed) (.ofTable _) (.ofTable _)
  refine ⟨replaces, distinct, ⟨rfl, rfl⟩, ?_, count, looks⟩
  rw [arranged]
  exact (agrees (.ofTable mixed)).1

end Reparser

end LuaFold
