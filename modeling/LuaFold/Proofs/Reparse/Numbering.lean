import LuaFold.Proofs.Reparse.Mark

/-!
# The numbers of one document

All documents share one numbering.  The submissions of one of them have a numbering of their own:
the number of a submission in it is how many of the submissions so far are of the document.  On
the numbers of its own submissions this is an isomorphism of orders, and any other number compares
with these as it did before.

Whatever is numbered can be narrowed to one document: what concerns another one is left out, and
the rest is renumbered.  Looking a number up, striking it out, and applying updates all commute
with that.
-/

namespace LuaFold

/-- The numbers in the state of a document, replaced. -/
def DocumentState.renumber (rename : Nat → Nat) (known : DocumentState) : DocumentState :=
  ⟨rename known.generation, rename known.applied⟩

namespace Reparser

variable {Document : Type} [DecidableEq Document]

/-! ## Ranks -/

/-- How many submissions up to a number are of a document. -/
def rank (document : Document) (all : List Document) (number : Nat) : Nat :=
  (all.take number).count document

/-- The submission with a number is of a document. -/
def Issued (all : List Document) (document : Document) (number : Nat) : Prop :=
  0 < number ∧ all[number - 1]? = some document

instance
    (all : List Document)
    (document : Document)
    (number : Nat) :
    Decidable (Issued all document number) :=
  inferInstanceAs (Decidable (_ ∧ _))

/-- The number of a submission of a document among the submissions of the document. -/
def renumber? (document : Document) (all : List Document) (number : Nat) : Option Nat :=
  if Issued all document number then some (rank document all number) else none

section Ranks

variable {all : List Document} {document other : Document} {number : Nat}

theorem rank_succ
    (document : Document)
    (all : List Document)
    (number : Nat) :
    rank document all (number + 1) =
      rank document all number + if all[number]? = some document then 1 else 0 := by
  rw [rank, rank, List.take_add_one, List.count_append]
  cases all[number]? with
  | none => simp
  | some other => by_cases same : other = document <;> simp [same]

theorem rank_mono
    (document : Document)
    (all : List Document) :
    Monotone (rank document all) := by
  refine monotone_nat_of_le_succ fun number => ?_
  rw [rank_succ]
  exact Nat.le_add_right _ _

omit [DecidableEq Document] in
theorem issued_succ :
    Issued all document (number + 1) ↔ all[number]? = some document := by
  simp [Issued]

omit [DecidableEq Document] in
theorem Issued.document_eq
    (first : Issued all document number)
    (second : Issued all other number) :
    document = other :=
  Option.some.inj (first.2.symm.trans second.2)

/-- The submissions of a document keep their order, to one another and to any number. -/
theorem Issued.rank_le_iff
    (issued : Issued all document number)
    (bound : Nat) :
    rank document all number ≤ rank document all bound ↔ number ≤ bound := by
  refine ⟨fun ranked => ?_, fun le => rank_mono document all le⟩
  by_contra beyond
  obtain ⟨positive, here⟩ := issued
  obtain ⟨before, rfl⟩ := Nat.exists_eq_succ_of_ne_zero (Nat.ne_of_gt positive)
  rw [Nat.succ_eq_add_one, Nat.add_sub_cancel] at here
  have below := rank_mono document all (show bound ≤ before by omega)
  rw [Nat.succ_eq_add_one, rank_succ, if_pos here] at ranked
  omega

theorem Issued.rank_inj
    (issued : Issued all document number)
    {bound : Nat}
    (issued' : Issued all document bound) :
    rank document all number = rank document all bound ↔ number = bound := by
  refine ⟨fun same => ?_, fun same => same ▸ rfl⟩
  exact Nat.le_antisymm ((issued.rank_le_iff bound).mp same.le)
    ((issued'.rank_le_iff number).mp same.ge)

theorem renumber?_of_issued (issued : Issued all document number) :
    renumber? document all number = some (rank document all number) :=
  if_pos issued

theorem renumber?_of_not_issued (foreign : ¬ Issued all document number) :
    renumber? document all number = none :=
  if_neg foreign

theorem renumber?_of_ne
    (issued : Issued all other number)
    (different : other ≠ document) :
    renumber? document all number = none :=
  if_neg fun issued' => different (issued.document_eq issued')

end Ranks

/-! ## Narrowing -/

/-- What is numbered: it belongs to a document, and its numbers can be replaced. -/
class Numbered (Item : Type) (Document : outParam Type) where
  document : Item → Document
  number : Item → Nat
  renumber : (Nat → Nat) → Item → Item
  document_renumber : ∀ rename item, document (renumber rename item) = document item
  number_renumber : ∀ rename item, number (renumber rename item) = rename (number item)

attribute [simp] Numbered.document_renumber Numbered.number_renumber

instance : Numbered (Submission Document) Document where
  document := Submission.document
  number := Submission.sequence
  renumber rename submission :=
    { submission with
      sequence := rename submission.sequence
      generation := rename submission.generation }
  document_renumber _ _ := rfl
  number_renumber _ _ := rfl

instance : Numbered (Submission Document × Bool) Document where
  document cycle := cycle.1.document
  number cycle := cycle.1.sequence
  renumber rename cycle := (Numbered.renumber rename cycle.1, cycle.2)
  document_renumber _ _ := rfl
  number_renumber _ _ := rfl

instance : Numbered (Update Document) Document where
  document := Update.document
  number := Update.sequence
  renumber rename update := { update with sequence := rename update.sequence }
  document_renumber _ _ := rfl
  number_renumber _ _ := rfl

section Narrowing

variable {Item : Type} [Numbered Item Document]

/-- Every number is that of a submission of the document it comes with. -/
def Genuinely (all : List Document) (items : List Item) : Prop :=
  ∀ item ∈ items, Issued all (Numbered.document item) (Numbered.number item)

/-- What belongs to a document, renumbered. -/
def narrow (document : Document) (all : List Document) (items : List Item) : List Item :=
  (items.filter fun item => Numbered.document item = document).map
    (Numbered.renumber (rank document all))

variable {all : List Document} {document : Document} {items : List Item} {number : Nat}

@[simp]
theorem narrow_nil : narrow document all ([] : List Item) = [] :=
  rfl

@[simp]
theorem narrow_append (first second : List Item) :
    narrow document all (first ++ second) =
      narrow document all first ++ narrow document all second := by
  simp [narrow]

theorem narrow_cons
    (item : Item)
    (items : List Item) :
    narrow document all (item :: items) =
      narrow document all [item] ++ narrow document all items :=
  narrow_append [item] items

theorem narrow_of_same
    {item : Item}
    (same : Numbered.document item = document) :
    narrow document all [item] = [Numbered.renumber (rank document all) item] := by
  simp [narrow, same]

theorem narrow_of_ne
    {item : Item}
    (different : Numbered.document item ≠ document) :
    narrow document all [item] = [] := by
  simp [narrow, different]

omit [DecidableEq Document] in
theorem Genuinely.append
    {first second : List Item}
    (genuine : Genuinely all first)
    (genuine' : Genuinely all second) :
    Genuinely all (first ++ second) := by
  intro item member
  exact (List.mem_append.mp member).elim (genuine item) (genuine' item)

omit [DecidableEq Document] in
theorem Genuinely.sublist
    {part : List Item}
    (genuine : Genuinely all items)
    (sublist : part.Sublist items) :
    Genuinely all part :=
  fun item member => genuine item (sublist.subset member)

/-- Whether an item of the document has a number can be asked before or after renumbering. -/
theorem Genuinely.number_iff
    (genuine : Genuinely all items)
    (issued : Issued all document number)
    {item : Item}
    (member : item ∈ items)
    (same : Numbered.document item = document) :
    rank document all (Numbered.number item) = rank document all number ↔
      Numbered.number item = number :=
  (same ▸ genuine item member : Issued all document (Numbered.number item)).rank_inj issued

omit [DecidableEq Document] in
/-- An item with the number of a submission of the document belongs to the document. -/
theorem Genuinely.document_eq
    (genuine : Genuinely all items)
    (issued : Issued all document number)
    {item : Item}
    (member : item ∈ items)
    (numbered : Numbered.number item = number) :
    Numbered.document item = document :=
  (numbered ▸ genuine item member : Issued all (Numbered.document item) number).document_eq issued

theorem find?_narrow
    (genuine : Genuinely all items)
    (issued : Issued all document number) :
    (narrow document all items).find? (fun item =>
        Numbered.number item = rank document all number) =
      (items.find? fun item => Numbered.number item = number).map
        (Numbered.renumber (rank document all)) := by
  rw [narrow, List.find?_map, List.find?_filter]
  congr 1
  refine List.find?_congr fun item member => ?_
  by_cases same : Numbered.document item = document
  · simp [same, genuine.number_iff issued member same]
  · simpa [same] using fun numbered => same (genuine.document_eq issued member numbered)

/-- Striking a number out of the numbering of the document. -/
theorem filter_narrow
    (genuine : Genuinely all items)
    (issued : Issued all document number) :
    (narrow document all items).filter (fun item =>
        Numbered.number item ≠ rank document all number) =
      narrow document all (items.filter fun item => Numbered.number item ≠ number) := by
  rw [narrow, narrow, List.filter_map, List.filter_filter, List.filter_filter]
  congr 1
  refine List.filter_congr fun item member => ?_
  by_cases same : Numbered.document item = document
  · simp [same, genuine.number_iff issued member same]
  · simp [same]

/-- The numbers of other documents can be struck out unnoticed. -/
theorem narrow_filter_of_not_issued
    (genuine : Genuinely all items)
    (foreign : ¬ Issued all document number) :
    narrow document all (items.filter fun item => Numbered.number item ≠ number) =
      narrow document all items := by
  rw [narrow, narrow, List.filter_filter]
  congr 1
  refine List.filter_congr fun item member => ?_
  by_cases same : Numbered.document item = document
  · have issued := genuine item member
    rw [same] at issued
    have apart : Numbered.number item ≠ number := fun numbered => foreign (numbered ▸ issued)
    simp [same, apart]
  · simp [same]

/-- The new numbers of some items are those of the items of the document. -/
theorem filterMap_renumber? (genuine : Genuinely all items) :
    items.filterMap (fun item => renumber? document all (Numbered.number item)) =
      (narrow document all items).map Numbered.number := by
  induction items with
  | nil => rfl
  | cons item items ih =>
      have ih := ih fun other member => genuine other (List.mem_cons_of_mem item member)
      have issued := genuine item List.mem_cons_self
      rw [narrow_cons, List.map_append, ← ih]
      by_cases same : Numbered.document item = document
      · rw [narrow_of_same same]
        rw [same] at issued
        simp [renumber?_of_issued issued]
      · simp [narrow_of_ne same, renumber?_of_ne issued same]

end Narrowing

/-! ## Updates -/

section Updates

variable {View : Type} [Display View]
  {all : List Document} {document : Document} {updates : List (Update Document)}

/-- What the owner has of a document, with other numbers. -/
def renumberLook
    (rename : Nat → Nat)
    (look : Option DocumentState × Option View) :
    Option DocumentState × Option View :=
  (look.1.map (DocumentState.renumber rename), look.2)

/-- A document with a state and a view takes what is newer than its view took last. -/
def takes (update : Update Document) : Option DocumentState × Option View → Bool
  | (some known, some _) => known.applied < update.sequence
  | _ => false

/-- The updates that a document takes, out of updates of it. -/
def accepted (look : Option DocumentState × Option View) :
    List (Update Document) → List (Update Document)
  | [] => []
  | update :: updates =>
    (if takes update look then [update] else []) ++ accepted (advance update look) updates

/-- The newer of what was kept and an update, the kept one among equals. -/
def newer
    (kept? : Option (Update Document))
    (update : Update Document) :
    Option (Update Document) :=
  match kept? with
  | some earlier => if update.sequence ≤ earlier.sequence then some earlier else some update
  | none => some update

/-- The newest update of some, the first among equals. -/
def newestOf (updates : List (Update Document)) : Option (Update Document) :=
  updates.foldl newer none

/-- An update with another number. -/
abbrev renumbered (rename : Nat → Nat) (update : Update Document) : Update Document :=
  Numbered.renumber rename update

theorem narrow_updates (updates : List (Update Document)) :
    narrow document all updates =
      (updatesOf document updates).map (renumbered (rank document all)) :=
  rfl

theorem Genuinely.updatesOf (genuine : Genuinely all updates) :
    ∀ update ∈ updatesOf document updates, Issued all document update.sequence := by
  intro update member
  obtain ⟨listed, same⟩ := List.mem_filter.mp member
  exact of_decide_eq_true same ▸ genuine update listed

theorem updatesOf_narrow (updates : List (Update Document)) :
    updatesOf document (narrow document all updates) = narrow document all updates := by
  refine List.filter_eq_self.mpr fun update member => ?_
  obtain ⟨earlier, listed, rfl⟩ := List.mem_map.mp member
  exact (List.mem_filter.mp listed).2

/-! ### What reaches a document -/

theorem Applied.snd_apply
    (state : Applied Document View)
    (update : Update Document) :
    (state.apply update).2 = takes update (state.look update.document) := by
  rw [Applied.apply, Applied.look]
  cases state.reparser.documents.get? update.document with
  | none => rfl
  | some known =>
      by_cases stale : update.sequence ≤ known.applied
      · cases state.views.get? update.document <;> simp [takes, stale]
      · cases state.views.get? update.document <;> simp [takes, stale, Nat.lt_of_not_le stale]

theorem Applied.taken_sublist
    (state : Applied Document View)
    (updates : List (Update Document)) :
    (state.taken updates).Sublist updates := by
  induction updates generalizing state with
  | nil => exact .slnil
  | cons update updates ih =>
      rw [Applied.taken]
      split
      · exact (ih _).cons_cons update
      · exact (ih _).cons update

/-- A document takes of some updates just what it takes of its own. -/
theorem Applied.updatesOf_taken
    (state : Applied Document View)
    (updates : List (Update Document))
    (document : Document) :
    updatesOf document (state.taken updates) =
      accepted (state.look document) (updatesOf document updates) := by
  induction updates generalizing state with
  | nil => rfl
  | cons update updates ih =>
      have look := state.look_apply update document
      rw [Applied.taken, updatesOf, List.filter_append, ← updatesOf, ← updatesOf, ih, look,
        state.snd_apply]
      by_cases same : update.document = document
      · cases same
        by_cases newer : takes update (state.look update.document) = true <;>
          simp [updatesOf, accepted, newer]
      · by_cases newer : takes update (state.look update.document) = true <;>
          simp [updatesOf, same, newer]

theorem Applied.look_applyAll_eq_foldl
    (state : Applied Document View)
    (updates : List (Update Document))
    (document : Document) :
    (state.applyAll updates).1.look document =
      (updatesOf document updates).foldl (fun look update => advance update look)
        (state.look document) := by
  induction updates generalizing state with
  | nil => rfl
  | cons update updates ih =>
      rw [Applied.applyAll_cons, ih, Applied.look_apply]
      by_cases same : update.document = document <;> simp [updatesOf, same]

/-! ### What a batch is thinned out to -/

theorem get?_newestUpdates
    (updates : List (Update Document))
    (document : Document) :
    (newestUpdates updates).get? document = newestOf (updatesOf document updates) := by
  induction updates using List.reverseRecOn with
  | nil => rfl
  | append_singleton updates update ih =>
      rw [newestUpdates, List.foldl_append, ← newestUpdates, updatesOf, List.filter_append,
        ← updatesOf, newestOf, List.foldl_append, ← newestOf, ← ih]
      rcases eq_or_ne update.document document with rfl | different
      · cases kept : (newestUpdates updates).get? update.document with
        | none => simp [newer, kept]
        | some earlier => by_cases older : update.sequence ≤ earlier.sequence <;>
            simp [newer, kept, older]
      · cases kept : (newestUpdates updates).get? update.document with
        | none => simp [kept, different, Table.get?_set_of_ne _ different]
        | some earlier => by_cases older : update.sequence ≤ earlier.sequence <;>
            simp [kept, older, different, Table.get?_set_of_ne _ different]

theorem updatesOf_of_single
    {updates : List (Update Document)}
    (single : (updates.map Update.document).Nodup)
    (document : Document) :
    updatesOf document updates =
      (updates.find? fun update => update.document = document).toList := by
  induction updates with
  | nil => rfl
  | cons update updates ih =>
      obtain ⟨fresh, single⟩ := List.nodup_cons.mp single
      have ih := ih single
      by_cases same : update.document = document
      · have none_left : updatesOf document updates = [] := by
          refine List.filter_eq_nil_iff.mpr fun other member found => fresh ?_
          rw [same, ← of_decide_eq_true found]
          exact List.mem_map_of_mem member
        simp [updatesOf, same, ← none_left]
      · simpa [updatesOf, same] using ih

/-- A batch is thinned out to at most one update of a document, its newest. -/
theorem updatesOf_newestUpdates
    (updates : List (Update Document))
    (document : Document) :
    updatesOf document (newestUpdates updates).values =
      (newestOf (updatesOf document updates)).toList := by
  have newest := newest_newestUpdates updates
  rw [updatesOf_of_single newest.single, newest.find?, get?_newestUpdates]

/-! ### With other numbers -/

omit [Display View] in
theorem takes_renumbered
    {update : Update Document}
    (issued : Issued all document update.sequence)
    (look : Option DocumentState × Option View) :
    takes (renumbered (rank document all) update) (renumberLook (rank document all) look) =
      takes update look := by
  obtain ⟨_ | known, _ | view⟩ := look <;> try rfl
  have ordered := issued.rank_le_iff known.applied
  simp only [takes, renumberLook, Option.map_some, decide_eq_decide]
  rw [← Nat.not_le, ← Nat.not_le, not_iff_not]
  exact ordered

theorem advance_renumbered
    {update : Update Document}
    (issued : Issued all document update.sequence)
    (look : Option DocumentState × Option View) :
    advance (renumbered (rank document all) update) (renumberLook (rank document all) look) =
      renumberLook (rank document all) (advance update look) := by
  obtain ⟨_ | known, _ | view⟩ := look <;> try rfl
  have ordered := issued.rank_le_iff known.applied
  by_cases older : update.sequence ≤ known.applied
  · rw [advance, if_pos older]
    exact if_pos (ordered.mpr older)
  · rw [advance, if_neg older]
    exact if_neg (older ∘ ordered.mp)

/-- A document takes the same updates, whichever numbering they have. -/
theorem accepted_renumbered
    (issued : ∀ update ∈ updates, Issued all document update.sequence)
    (look : Option DocumentState × Option View) :
    accepted (renumberLook (rank document all) look)
        (updates.map (renumbered (rank document all))) =
      (accepted look updates).map (renumbered (rank document all)) := by
  induction updates generalizing look with
  | nil => rfl
  | cons update updates ih =>
      obtain ⟨here, issued⟩ := List.forall_mem_cons.mp issued
      rw [List.map_cons, accepted, accepted, takes_renumbered here, advance_renumbered here,
        ih issued, List.map_append]
      split <;> rfl

theorem foldl_advance_renumbered
    (issued : ∀ update ∈ updates, Issued all document update.sequence)
    (look : Option DocumentState × Option View) :
    (updates.map (renumbered (rank document all))).foldl (fun look update => advance update look)
        (renumberLook (rank document all) look) =
      renumberLook (rank document all)
        (updates.foldl (fun look update => advance update look) look) := by
  induction updates generalizing look with
  | nil => rfl
  | cons update updates ih =>
      obtain ⟨here, issued⟩ := List.forall_mem_cons.mp issued
      rw [List.map_cons, List.foldl_cons, List.foldl_cons, advance_renumbered here, ih issued]

theorem foldl_newer_renumbered
    (issued : ∀ update ∈ updates, Issued all document update.sequence)
    (kept? : Option (Update Document)) :
    (updates.map (renumbered (rank document all))).foldl newer
        (kept?.map (renumbered (rank document all))) =
      (updates.foldl newer kept?).map (renumbered (rank document all)) := by
  induction updates generalizing kept? with
  | nil => rfl
  | cons update updates ih =>
      obtain ⟨here, issued⟩ := List.forall_mem_cons.mp issued
      rw [List.map_cons, List.foldl_cons, List.foldl_cons, ← ih issued]
      congr 1
      cases kept? with
      | none => rfl
      | some earlier =>
          have ordered := here.rank_le_iff earlier.sequence
          by_cases older : update.sequence ≤ earlier.sequence
          · simp only [newer, if_pos older]
            exact if_pos (ordered.mpr older)
          · simp only [newer, if_neg older]
            exact if_neg (older ∘ ordered.mp)

/-! ### What a document sees of updates, with other numbers -/

/-- A document takes the same updates of a list as of the list narrowed to it. -/
theorem Applied.taken_narrow
    {state other : Applied Document View}
    (look : other.look document = renumberLook (rank document all) (state.look document))
    (genuine : Genuinely all updates) :
    other.taken (narrow document all updates) = narrow document all (state.taken updates) := by
  have own : updatesOf document (other.taken (narrow document all updates)) =
      other.taken (narrow document all updates) := by
    refine List.filter_eq_self.mpr fun update member => ?_
    have listed := (other.taken_sublist _).subset member
    rw [← updatesOf_narrow] at listed
    exact (List.mem_filter.mp listed).2
  rw [← own, Applied.updatesOf_taken, updatesOf_narrow, look, narrow_updates, narrow_updates,
    accepted_renumbered genuine.updatesOf, Applied.updatesOf_taken]

/-- A document and its view become the same with a list as with the list narrowed to it. -/
theorem Applied.look_applyAll_narrow
    {state other : Applied Document View}
    (look : other.look document = renumberLook (rank document all) (state.look document))
    (genuine : Genuinely all updates) :
    (other.applyAll (narrow document all updates)).1.look document =
      renumberLook (rank document all) ((state.applyAll updates).1.look document) := by
  rw [Applied.look_applyAll_eq_foldl, Applied.look_applyAll_eq_foldl, updatesOf_narrow, look,
    narrow_updates, foldl_advance_renumbered genuine.updatesOf]

/-- A narrowed batch is thinned out to what is left of the batch, thinned out. -/
theorem newestUpdates_narrow (genuine : Genuinely all updates) :
    (newestUpdates (narrow document all updates)).values =
      narrow document all (newestUpdates updates).values := by
  have own : updatesOf document (newestUpdates (narrow document all updates)).values =
      (newestUpdates (narrow document all updates)).values := by
    refine List.filter_eq_self.mpr fun update member => ?_
    have listed := mem_of_mem_newestUpdates member
    rw [← updatesOf_narrow] at listed
    exact (List.mem_filter.mp listed).2
  rw [← own, updatesOf_newestUpdates, updatesOf_narrow, narrow_updates, narrow_updates,
    updatesOf_newestUpdates, newestOf, ← Option.map_none (renumbered (rank document all)),
    foldl_newer_renumbered genuine.updatesOf, ← newestOf]
  cases newestOf (updatesOf document updates) <;> rfl

end Updates

end Reparser

end LuaFold
