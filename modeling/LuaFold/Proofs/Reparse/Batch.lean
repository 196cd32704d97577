import LuaFold.Reparse.Reparser
import Mathlib.Data.List.Find
import Mathlib.Data.List.Induction
import Mathlib.Data.List.Nodup

/-!
# Batches of updates

A batch is thinned out to the newest update of each document.  So at most one update of a batch
reaches a document, and what it does there depends on nothing but the state of this document
and its view.
-/

namespace LuaFold

namespace Table

variable {Key Value : Type} [DecidableEq Key]

/-- No key of a table has two entries. -/
def Keyed (table : Table Key Value) : Prop :=
  (table.entries.map Prod.fst).Nodup

omit [DecidableEq Key] in
theorem keyed_empty : (empty : Table Key Value).Keyed :=
  List.nodup_nil

theorem map_fst_setEntry
    (key : Key)
    (value : Value)
    (entries : List (Key × Value)) :
    (setEntry key value entries).map Prod.fst =
      if key ∈ entries.map Prod.fst then entries.map Prod.fst
      else entries.map Prod.fst ++ [key] := by
  induction entries with
  | nil => rfl
  | cons entry rest ih =>
      by_cases same : entry.1 = key
      · simp [setEntry, same]
      · have other : key ≠ entry.1 := Ne.symm same
        by_cases later : key ∈ rest.map Prod.fst
        · simp only [setEntry, same, ↓reduceIte, List.map_cons, ih, later, List.mem_cons, or_true]
        · simp only [setEntry, same, ↓reduceIte, List.map_cons, ih, later, List.mem_cons, or_false,
            other, List.cons_append]

theorem Keyed.set
    {table : Table Key Value}
    (keyed : table.Keyed)
    (key : Key)
    (value : Value) :
    (table.set key value).Keyed := by
  rw [Keyed, Table.set, map_fst_setEntry]
  split
  · exact keyed
  · next fresh =>
    refine List.nodup_append.mpr ⟨keyed, List.nodup_singleton key, ?_⟩
    intro other listed last member same
    rw [List.mem_singleton.mp member] at same
    exact fresh (same ▸ listed)

theorem mem_entries_set
    {table : Table Key Value}
    {key : Key}
    {value : Value}
    {entry : Key × Value}
    (member : entry ∈ (table.set key value).entries) :
    entry = (key, value) ∨ entry ∈ table.entries := by
  obtain ⟨entries⟩ := table
  simp only [Table.set] at member
  induction entries with
  | nil => exact Or.inl (List.mem_singleton.mp member)
  | cons first rest ih =>
      rw [setEntry] at member
      split at member
      · rcases List.mem_cons.mp member with new | later
        · exact Or.inl new
        · exact Or.inr (List.mem_cons_of_mem first later)
      · rcases List.mem_cons.mp member with same | later
        · exact Or.inr (same ▸ List.mem_cons_self)
        · rcases ih later with new | known
          · exact Or.inl new
          · exact Or.inr (List.mem_cons_of_mem first known)

end Table

namespace Reparser

variable {Document : Type} [DecidableEq Document]

/-! ## The newest update of each document -/

/-- What thinning out keeps: for each document its newest update, under its own key. -/
structure Newest
    (updates : List (Update Document))
    (kept : Table Document (Update Document)) :
    Prop where
  keyed : kept.Keyed
  labelled : ∀ entry ∈ kept.entries, entry.2.document = entry.1
  found : ∀ document update, kept.get? document = some update →
    update ∈ updates ∧ update.document = document
  greatest : ∀ update ∈ updates, ∃ newest, kept.get? update.document = some newest ∧
    update.sequence ≤ newest.sequence

theorem Newest.nil : Newest ([] : List (Update Document)) .empty :=
  ⟨Table.keyed_empty, by simp [Table.empty], by simp, by simp⟩

/-- An update that replaces what was kept for its document. -/
theorem Newest.replace
    {updates : List (Update Document)}
    {kept : Table Document (Update Document)}
    (newest : Newest updates kept)
    {update : Update Document}
    (newer : ∀ earlier, kept.get? update.document = some earlier →
      earlier.sequence ≤ update.sequence) :
    Newest (updates ++ [update]) (kept.set update.document update) := by
  refine ⟨newest.keyed.set _ _, ?_, ?_, ?_⟩
  · intro entry member
    rcases Table.mem_entries_set member with rfl | known
    · rfl
    · exact newest.labelled entry known
  · intro document other found
    rw [Table.get?_set] at found
    split at found
    · next same =>
      cases found
      exact ⟨by simp, same⟩
    · obtain ⟨member, same⟩ := newest.found document other found
      exact ⟨List.mem_append_left _ member, same⟩
  · intro other member
    rw [Table.get?_set]
    split
    · next same =>
      refine ⟨update, rfl, ?_⟩
      rcases List.mem_append.mp member with earlier | last
      · obtain ⟨known, found, bound⟩ := newest.greatest other earlier
        rw [← same] at found
        exact Nat.le_trans bound (newer known found)
      · exact Nat.le_of_eq (congrArg Update.sequence (List.mem_singleton.mp last))
    · next different =>
      rcases List.mem_append.mp member with earlier | last
      · exact newest.greatest other earlier
      · exact absurd (by rw [List.mem_singleton.mp last]) different

/-- An update that is no newer than what was kept for its document. -/
theorem Newest.keep
    {updates : List (Update Document)}
    {kept : Table Document (Update Document)}
    (newest : Newest updates kept)
    {update earlier : Update Document}
    (found : kept.get? update.document = some earlier)
    (older : update.sequence ≤ earlier.sequence) :
    Newest (updates ++ [update]) kept := by
  refine ⟨newest.keyed, newest.labelled, ?_, ?_⟩
  · intro document other known
    obtain ⟨member, same⟩ := newest.found document other known
    exact ⟨List.mem_append_left _ member, same⟩
  · intro other member
    rcases List.mem_append.mp member with known | last
    · exact newest.greatest other known
    · rw [List.mem_singleton.mp last]
      exact ⟨earlier, found, older⟩

theorem newest_newestUpdates (updates : List (Update Document)) :
    Newest updates (newestUpdates updates) := by
  induction updates using List.reverseRecOn with
  | nil => exact .nil
  | append_singleton updates update ih =>
      rw [newestUpdates, List.foldl_append, List.foldl_cons, List.foldl_nil]
      rw [newestUpdates] at ih
      split
      · next earlier found =>
        split
        · next older => exact ih.keep found older
        · next newer =>
          refine ih.replace fun other known => ?_
          rw [found] at known
          cases known
          omega
      · next missing =>
        refine ih.replace fun other known => ?_
        rw [missing] at known
        cases known

/-! ## What one update does -/

variable {View : Type} [Display View]

/-- What the owner has of a document: its state and its view. -/
def Applied.look
    (state : Applied Document View)
    (document : Document) :
    Option DocumentState × Option View :=
  (state.reparser.documents.get? document, state.views.get? document)

/-- What an update makes of the state and the view of its document. -/
def advance (update : Update Document) :
    Option DocumentState × Option View → Option DocumentState × Option View
  | (some known, some view) =>
    if update.sequence ≤ known.applied then (some known, some view)
    else
      (some { known with applied := update.sequence },
        some (Display.refresh view update.text update.regions (outline update.regions)))
  | other => other

theorem Applied.look_apply
    (state : Applied Document View)
    (update : Update Document)
    (document : Document) :
    (state.apply update).1.look document =
      if update.document = document then advance update (state.look document)
      else state.look document := by
  rcases eq_or_ne update.document document with rfl | different
  · rw [if_pos rfl, Applied.apply, Applied.look]
    cases known? : state.reparser.documents.get? update.document with
    | none => simp [Applied.look, advance, known?]
    | some known =>
        cases view? : state.views.get? update.document with
        | none => by_cases older : update.sequence ≤ known.applied <;>
            simp [Applied.look, advance, known?, view?, older]
        | some view => by_cases older : update.sequence ≤ known.applied <;>
            simp [Applied.look, advance, known?, view?, older]
  · rw [if_neg different, Applied.apply]
    split
    · rfl
    · split
      · rfl
      · split
        · rfl
        · simp [Applied.look, Table.get?_set, different]

/-- Nothing but documents and views is touched when an update is applied. -/
theorem Applied.reparser_apply
    (state : Applied Document View)
    (update : Update Document) :
    (state.apply update).1.reparser =
      { state.reparser with documents := (state.apply update).1.reparser.documents } := by
  rw [Applied.apply]
  split
  · rfl
  · split
    · rfl
    · split <;> rfl

/-! ## What a batch does -/

/-- Apart from its count, a batch is applied one update after the other. -/
theorem Applied.applyAll_eq_foldl
    (state : Applied Document View)
    (updates : List (Update Document)) :
    (state.applyAll updates).1 =
      updates.foldl (fun reached update => (reached.apply update).1) state := by
  rw [Applied.applyAll]
  exact (List.foldl_hom Prod.fst fun _ _ => rfl).symm

theorem Applied.applyAll_cons
    (state : Applied Document View)
    (update : Update Document)
    (updates : List (Update Document)) :
    (state.applyAll (update :: updates)).1 = ((state.apply update).1.applyAll updates).1 := by
  rw [Applied.applyAll_eq_foldl, Applied.applyAll_eq_foldl, List.foldl_cons]

theorem Applied.reparser_applyAll
    (state : Applied Document View)
    (updates : List (Update Document)) :
    (state.applyAll updates).1.reparser =
      { state.reparser with documents := (state.applyAll updates).1.reparser.documents } := by
  induction updates generalizing state with
  | nil => rfl
  | cons update updates ih =>
      rw [Applied.applyAll_cons, ih, Applied.reparser_apply]

/-- With at most one update of each document, every document sees its own alone. -/
theorem Applied.look_applyAll
    (state : Applied Document View)
    (updates : List (Update Document))
    (single : (updates.map Update.document).Nodup)
    (document : Document) :
    (state.applyAll updates).1.look document =
      match updates.find? (fun update => update.document = document) with
      | some update => advance update (state.look document)
      | none => state.look document := by
  induction updates generalizing state with
  | nil => rfl
  | cons update updates ih =>
      obtain ⟨fresh, single⟩ := List.nodup_cons.mp single
      rw [Applied.applyAll_cons, ih _ single, Applied.look_apply]
      by_cases same : update.document = document
      · have missing : updates.find? (fun update => update.document = document) = none := by
          refine List.find?_eq_none.mpr fun other member other_same => fresh ?_
          rw [same, ← of_decide_eq_true other_same]
          exact List.mem_map_of_mem member
        simp [same, missing]
      · simp [same]

theorem Newest.find?
    {updates : List (Update Document)}
    {kept : Table Document (Update Document)}
    (newest : Newest updates kept)
    (document : Document) :
    kept.values.find? (fun update => update.document = document) = kept.get? document := by
  rw [Table.values, List.find?_map, Table.get?]
  congr 1
  refine List.find?_congr fun entry member => ?_
  simp [newest.labelled entry member]

theorem Newest.single
    {updates : List (Update Document)}
    {kept : Table Document (Update Document)}
    (newest : Newest updates kept) :
    (kept.values.map Update.document).Nodup := by
  have labels : kept.values.map Update.document = kept.entries.map Prod.fst := by
    rw [Table.values, List.map_map]
    exact List.map_congr_left newest.labelled
  rw [labels]
  exact newest.keyed

/-- A document sees the newest update of it that was received, and no other. -/
theorem Applied.look_drain
    (state : Applied Document View)
    (document : Document) :
    state.drain.1.look document =
      match (newestUpdates state.reparser.received).get? document with
      | some update => advance update (state.look document)
      | none => state.look document := by
  have newest := newest_newestUpdates state.reparser.received
  rw [Applied.drain, Applied.applyBatch, Applied.look_applyAll _ _ newest.single, newest.find?]
  rfl

theorem Applied.reparser_drain (state : Applied Document View) :
    state.drain.1.reparser =
      { state.reparser with
        received := [], documents := state.drain.1.reparser.documents } := by
  rw [Applied.drain, Applied.applyBatch, Applied.reparser_applyAll]

omit [DecidableEq Document] in
theorem generation_advance
    (update : Update Document)
    (look : Option DocumentState × Option View) :
    (advance update look).1.map DocumentState.generation =
      look.1.map DocumentState.generation := by
  unfold advance
  split
  · split <;> rfl
  · rfl

omit [DecidableEq Document] in
theorem isSome_view_advance
    (update : Update Document)
    (look : Option DocumentState × Option View) :
    (advance update look).2.isSome = look.2.isSome := by
  unfold advance
  split
  · split <;> rfl
  · rfl

theorem Applied.generation_applyAll
    (state : Applied Document View)
    (updates : List (Update Document))
    (document : Document) :
    ((state.applyAll updates).1.reparser.documents.get? document).map DocumentState.generation =
      (state.reparser.documents.get? document).map DocumentState.generation := by
  induction updates generalizing state with
  | nil => rfl
  | cons update updates ih =>
      have look := congrArg Prod.fst (state.look_apply update document)
      rw [Applied.applyAll_cons, ih,
        show (state.apply update).1.reparser.documents.get? document = _ from look]
      split
      · exact generation_advance _ _
      · rfl

theorem Applied.generation_drain
    (state : Applied Document View)
    (document : Document) :
    (state.drain.1.reparser.documents.get? document).map DocumentState.generation =
      (state.reparser.documents.get? document).map DocumentState.generation := by
  rw [Applied.drain, Applied.applyBatch, Applied.generation_applyAll]

theorem Applied.isSome_view_drain
    (state : Applied Document View)
    (document : Document) :
    (state.drain.1.views.get? document).isSome = (state.views.get? document).isSome := by
  have look := congrArg Prod.snd (state.look_drain document)
  rw [show state.drain.1.views.get? document = _ from look]
  split
  · exact isSome_view_advance _ _
  · rfl

/--
A document with a state and a view either has received nothing newer than what its view took
last, or its view takes the newest update received.
-/
theorem Applied.drain_cases
    (state : Applied Document View)
    {document : Document}
    {known : DocumentState}
    {view : View}
    (stated : state.reparser.documents.get? document = some known)
    (shown : state.views.get? document = some view) :
    state.drain.1.look document = (some known, some view) ∧
        (∀ update ∈ state.reparser.received, update.document = document →
          update.sequence ≤ known.applied) ∨
      ∃ update ∈ state.reparser.received, update.document = document ∧
        known.applied < update.sequence ∧
        (∀ other ∈ state.reparser.received, other.document = document →
          other.sequence ≤ update.sequence) ∧
        state.drain.1.look document =
          (some { known with applied := update.sequence },
            some (Display.refresh view update.text update.regions (outline update.regions))) := by
  have newest := newest_newestUpdates state.reparser.received
  have look := state.look_drain document
  have before : state.look document = (some known, some view) := by
    rw [Applied.look, stated, shown]
  rw [before] at look
  cases found : (newestUpdates state.reparser.received).get? document with
  | none =>
      rw [found] at look
      refine Or.inl ⟨look, ?_⟩
      intro update listed same
      rcases newest.greatest update listed with ⟨kept, found', _⟩
      rw [same, found] at found'
      cases found'
  | some update =>
      rw [found] at look
      rcases newest.found document update found with ⟨listed, same⟩
      have greatest : ∀ other ∈ state.reparser.received, other.document = document →
          other.sequence ≤ update.sequence := by
        intro other listed' same'
        rcases newest.greatest other listed' with ⟨kept, found', bound⟩
        rw [same', found] at found'
        cases found'
        exact bound
      by_cases older : update.sequence ≤ known.applied
      · refine Or.inl ⟨look.trans (if_pos older), ?_⟩
        intro other listed' same'
        exact Nat.le_trans (greatest other listed' same') older
      · refine Or.inr ⟨update, listed, same, Nat.lt_of_not_le older, greatest, ?_⟩
        exact look.trans (if_neg older)

end Reparser

end LuaFold
