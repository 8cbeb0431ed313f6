import Mathlib.Data.List.Pairwise
import SovereignJedi.Registry.Head

/-! Whether the clients of a registry agree on its head. Anchor decodes the time of every entry to an
object of its own, which `!==` tells from all others; so the comparison of `selectHead` never comes
to the CIDs, and the stable sort leaves entries of one time in the order of the list. -/

namespace SovereignJedi.Registry

open SovereignJedi.Js

variable {Pubkey : Type} {localeCompare : String → String → Int}

/-! ### Arrays -/

/-- The arrays of a program, by reference. -/
abbrev Arrays (α : Type) := List (List α)

/-- `[...xs]`, where the array `xs` has these elements. -/
def Arrays.spread {α : Type} (heap : Arrays α) (elements : List α) : Arrays α × Nat :=
  (heap ++ [elements], heap.length)

/-- `xs.sort(compareFn)`, which sorts in place. -/
def Arrays.sortAt {α : Type} (compareFn : α → α → Int) (heap : Arrays α) (xs : Nat) : Arrays α :=
  heap.modify xs (sort compareFn)

/-- `selectHead` of an array, with the arrays that it leaves. -/
def selectHeadAt (localeCompare : String → String → Int) (heap : Arrays (ClientEntry Pubkey))
    (entries : Option Nat) : Arrays (ClientEntry Pubkey) × Option (ClientEntry Pubkey) :=
  match entries with
  | none => (heap, none)
  | some entries =>
    let elements := heap.getD entries []
    if elements.isEmpty then (heap, none)
    else
      let (heap, copy) := heap.spread elements
      let heap := heap.sortAt (compareHead localeCompare) copy
      (heap, (heap.getD copy [])[0]?)

theorem selectHeadAt_result (heap : Arrays (ClientEntry Pubkey)) (entries : Nat) :
    (selectHeadAt localeCompare heap (some entries)).2 =
      selectHead localeCompare (heap.getD entries []) := by
  simp only [selectHeadAt, selectHead]
  split
  · rfl
  · simp [Arrays.spread, Arrays.sortAt]

/-- Only the copy is sorted. -/
theorem selectHeadAt_frame (heap : Arrays (ClientEntry Pubkey)) (entries : Option Nat) {i : Nat}
    (hi : i < heap.length) : (selectHeadAt localeCompare heap entries).1[i]? = heap[i]? := by
  cases entries with
  | none => rfl
  | some entries =>
    simp only [selectHeadAt]
    split
    · rfl
    · rw [Arrays.sortAt, Arrays.spread, List.getElem?_modify_ne _ _ (by omega),
        List.getElem?_append_left hi]

/-! ### The head that clients rely on -/

/-- The integer that a timestamp holds. -/
def PublishedAt.value : PublishedAt → Int
  | .number n => n
  | .bn _ n => n

/-- Entries as Anchor decodes them, where the times are exact as numbers. -/
structure Delivered (entries : List (ClientEntry Pubkey)) : Prop where
  bn : ∀ e ∈ entries, ∃ ref n, e.publishedAt = .bn ref n ∧ -2 ^ 53 < n ∧ n < 2 ^ 53
  own : entries.Pairwise fun a b => a.publishedAt.strictEq b.publishedAt = false

/-- `a` is not greater than `b` by time, then by CID. -/
def NotGreater (localeCompare : String → String → Int) (a b : ClientEntry Pubkey) : Prop :=
  a.publishedAt.value < b.publishedAt.value ∨
    (a.publishedAt.value = b.publishedAt.value ∧ localeCompare a.manifestCid b.manifestCid ≤ 0)

/-- The head is the greatest entry, whatever the order in which the entries are listed, and the
list stays as it is. -/
structure DeterministicHead (localeCompare : String → String → Int)
    (entries : List (ClientEntry Pubkey)) : Prop where
  null_iff : selectHead localeCompare entries = none ↔ entries = []
  greatest : ∀ head, selectHead localeCompare entries = some head →
    head ∈ entries ∧ ∀ e ∈ entries, NotGreater localeCompare e head
  order_free : (entries.map fun e => e.manifestCid).Nodup → ∀ other, other.Perm entries →
    selectHead localeCompare other = selectHead localeCompare entries
  unmodified : ∀ heap ref, heap[ref]? = some entries →
    (selectHeadAt localeCompare heap (some ref)).2 = selectHead localeCompare entries ∧
      ∀ i, i < heap.length → (selectHeadAt localeCompare heap (some ref)).1[i]? = heap[i]?

/-- `e` has the greatest time. -/
def Latest (entries : List (ClientEntry Pubkey)) (e : ClientEntry Pubkey) : Prop :=
  ∀ e' ∈ entries, e'.publishedAt.value ≤ e.publishedAt.value

/-- The order among the latest entries does not matter: the first of them has the greatest CID, and
if all CIDs are distinct there is no other. -/
structure TieFree (localeCompare : String → String → Int) (entries : List (ClientEntry Pubkey)) :
    Prop where
  first : ∀ earlier e later, entries = earlier ++ e :: later → Latest entries e →
    (∀ e' ∈ earlier, ¬ Latest entries e') →
      ∀ e' ∈ entries, Latest entries e' → localeCompare e'.manifestCid e.manifestCid ≤ 0
  unique : (entries.map fun e => e.manifestCid).Nodup →
    ∀ e ∈ entries, ∀ e' ∈ entries, Latest entries e → Latest entries e' → e = e'

/-! ### Which entry is selected -/

theorem strictEq_symm {s t : PublishedAt} (h : s.strictEq t = false) : t.strictEq s = false := by
  cases s <;> cases t <;> simp only [PublishedAt.strictEq, beq_eq_false_iff_ne, ne_eq] at h ⊢ <;>
    exact fun ht => h ht.symm

instance : Std.Symm fun a b : ClientEntry Pubkey =>
    a.publishedAt.strictEq b.publishedAt = false :=
  ⟨fun _ _ => strictEq_symm⟩

/-- `a` may stand before `b`, the latest first. -/
def notEarlier (a b : ClientEntry Pubkey) : Bool :=
  decide (b.publishedAt.value ≤ a.publishedAt.value)

namespace Delivered

variable {entries : List (ClientEntry Pubkey)} (h : Delivered entries)

include h

theorem perm {other : List (ClientEntry Pubkey)} (hperm : other.Perm entries) : Delivered other where
  bn e he := h.bn e (hperm.mem_iff.mp he)
  own := (hperm.pairwise_iff fun hab => strictEq_symm hab).mpr h.own

theorem strictEq_self {e : ClientEntry Pubkey} (he : e ∈ entries) :
    e.publishedAt.strictEq e.publishedAt = true := by
  obtain ⟨ref, n, hbn, -⟩ := h.bn e he
  simp [hbn, PublishedAt.strictEq]

theorem toNumber_eq {e : ClientEntry Pubkey} (he : e ∈ entries) :
    e.publishedAt.toNumber = e.publishedAt.value := by
  obtain ⟨ref, n, hbn, hlow, hhigh⟩ := h.bn e he
  rw [hbn]
  exact Double.ofInt_of_lt hlow hhigh

theorem nodup : entries.Nodup := by
  refine h.own.imp_of_mem fun ha _ hab => ?_
  rintro rfl
  simp [h.strictEq_self ha] at hab

/-- The comparison of two entries is that of their times. -/
theorem compareHead_le (horder : TotalOrder localeCompare) {a b : ClientEntry Pubkey}
    (ha : a ∈ entries) (hb : b ∈ entries) :
    decide (compareHead localeCompare a b ≤ 0) = notEarlier a b := by
  rw [compareHead, notEarlier, h.toNumber_eq ha, h.toNumber_eq hb]
  by_cases hab : a = b
  · subst hab
    have hself : localeCompare a.manifestCid a.manifestCid ≤ 0 := (horder.flip _ _).elim id id
    simp [h.strictEq_self ha, hself]
  · have hne : a.publishedAt.strictEq b.publishedAt = false :=
      h.own.forall ha hb hab
    simp [hne]

theorem sort_eq (horder : TotalOrder localeCompare) :
    sort (compareHead localeCompare) entries =
      entries.mergeSort notEarlier := by
  simpa [sort] using List.map_mergeSort (f := id) fun a ha b hb => h.compareHead_le horder ha hb

omit h in
theorem notEarlier_trans (a b c : ClientEntry Pubkey) :
    notEarlier a b → notEarlier b c → notEarlier a c := by
  simp only [notEarlier, decide_eq_true_eq]
  omega

omit h in
theorem notEarlier_total (a b : ClientEntry Pubkey) : notEarlier a b || notEarlier b a := by
  simp only [notEarlier, Bool.or_eq_true, decide_eq_true_eq]
  omega

/-- The head of a list with entries is one of the latest. -/
theorem selectHead_latest (horder : TotalOrder localeCompare) (hne : entries ≠ []) :
    ∃ head ∈ entries, selectHead localeCompare entries = some head ∧ Latest entries head ∧
      (sort (compareHead localeCompare) entries)[0]? = some head := by
  have hlen : 0 < (sort (compareHead localeCompare) entries).length := by
    simpa [sort] using List.length_pos_iff.mpr hne
  have hhead := List.getElem?_eq_getElem hlen
  obtain ⟨hmem, hfirst⟩ := sort_head (fun a ha b hb => h.compareHead_le horder ha hb)
    notEarlier_trans notEarlier_total hhead
  refine ⟨_, hmem, ?_, fun e he => of_decide_eq_true (hfirst e he), hhead⟩
  rw [selectHead, List.isEmpty_eq_false_iff.mpr hne]
  exact hhead

/-- The head is the first of the latest entries. -/
theorem selectHead_first (horder : TotalOrder localeCompare)
    (earlier : List (ClientEntry Pubkey)) {later : List (ClientEntry Pubkey)}
    {e : ClientEntry Pubkey} (hentries : entries = earlier ++ e :: later)
    (hlatest : Latest entries e) (hearlier : ∀ e' ∈ earlier, ¬ Latest entries e') :
    selectHead localeCompare entries = some e := by
  obtain ⟨head, hin, hselect, hhead, hsorted⟩ := h.selectHead_latest horder (by simp [hentries])
  have hlater : head = e ∨ head ∈ later := by
    rw [hentries, List.mem_append, List.mem_cons] at hin
    exact hin.resolve_left fun hin => hearlier head hin hhead
  rcases hlater with rfl | hlater
  · exact hselect
  · -- the sort is stable, so that `e` stays before `head`
    obtain ⟨rest, hsorted⟩ : ∃ rest, entries.mergeSort notEarlier = head :: rest := by
      rw [h.sort_eq horder] at hsorted
      exact ⟨_, (List.head?_eq_some_iff.mp (List.head?_eq_getElem? ▸ hsorted)).choose_spec⟩
    have hbefore : [e, head].Sublist entries := by
      rw [hentries]
      exact (List.Sublist.cons_cons e (List.singleton_sublist.mpr hlater)).trans
        (List.sublist_append_right earlier _)
    have hstable : [e, head].Sublist (head :: rest) := hsorted ▸
      List.pair_sublist_mergeSort notEarlier_trans notEarlier_total
        (decide_eq_true (hlatest head hin)) hbefore
    have hnodup : (head :: rest).Nodup :=
      hsorted ▸ (List.mergeSort_perm entries notEarlier).nodup_iff.mpr h.nodup
    cases hstable with
    | cons _ hrest => exact absurd (hrest.subset (by simp)) (List.nodup_cons.mp hnodup).1
    | cons_cons _ hrest => exact hselect

theorem exists_first (horder : TotalOrder localeCompare) (hne : entries ≠ []) :
    ∃ earlier e later, entries = earlier ++ e :: later ∧ Latest entries e ∧
      ∀ e' ∈ earlier, ¬ Latest entries e' := by
  classical
  obtain ⟨head, hin, -, hhead, -⟩ := h.selectHead_latest horder hne
  obtain ⟨e, he⟩ : ∃ e, entries.find? (fun e => decide (Latest entries e)) = some e := by
    rw [← Option.isSome_iff_exists, List.find?_isSome]
    exact ⟨head, hin, decide_eq_true hhead⟩
  obtain ⟨hlatest, earlier, later, hentries, hearlier⟩ := List.find?_eq_some_iff_append.mp he
  refine ⟨earlier, e, later, hentries, of_decide_eq_true hlatest, fun e' he' hl => ?_⟩
  simpa [hl] using hearlier e' he'

theorem tieFree_of_deterministic (horder : TotalOrder localeCompare)
    (hhead : DeterministicHead localeCompare entries) : TieFree localeCompare entries := by
  refine ⟨fun earlier e later hentries hlatest hearlier e' he' hlatest' => ?_,
    fun hcids e he e' he' hlatest hlatest' => ?_⟩
  · obtain ⟨he, hgreatest⟩ :=
      hhead.greatest e (h.selectHead_first horder earlier hentries hlatest hearlier)
    rcases hgreatest e' he' with hlt | ⟨-, hcid⟩
    · have := hlatest' e he
      omega
    · exact hcid
  · -- either of the two can be listed first
    have hfront : ∀ x ∈ entries, Latest entries x →
        selectHead localeCompare entries = some x := by
      intro x hx hlatest
      obtain ⟨earlier, later, rfl⟩ := List.append_of_mem hx
      have hperm : (x :: (earlier ++ later)).Perm (earlier ++ x :: later) :=
        List.perm_middle.symm
      rw [← hhead.order_free hcids _ hperm]
      refine (h.perm hperm).selectHead_first horder [] rfl (fun y hy => ?_) (by simp)
      exact hlatest y (hperm.mem_iff.mp hy)
    exact Option.some.inj ((hfront e he hlatest).symm.trans (hfront e' he' hlatest'))

theorem deterministic_of_tieFree (horder : TotalOrder localeCompare)
    (hfree : TieFree localeCompare entries) : DeterministicHead localeCompare entries where
  null_iff := by
    refine ⟨fun hnone => ?_, fun hnil => by rw [hnil]; rfl⟩
    by_contra hne
    obtain ⟨head, -, hhead, -⟩ := h.selectHead_latest horder hne
    rw [hnone] at hhead
    cases hhead
  greatest head hhead := by
    have hne : entries ≠ [] := by
      rintro rfl
      cases hhead
    obtain ⟨earlier, e, later, hentries, hlatest, hearlier⟩ := h.exists_first horder hne
    obtain rfl : e = head := Option.some.inj
      ((h.selectHead_first horder earlier hentries hlatest hearlier).symm.trans hhead)
    refine ⟨by simp [hentries], fun x hx => ?_⟩
    rcases Int.lt_or_eq_of_le (hlatest x hx) with hlt | heq
    · exact Or.inl hlt
    · exact Or.inr ⟨heq, hfree.first earlier e later hentries hlatest hearlier x hx
        fun y hy => heq ▸ hlatest y hy⟩
  order_free hcids other hperm := by
    by_cases hne : entries = []
    · rw [hne] at hperm ⊢
      rw [hperm.eq_nil]
    · have hother : other ≠ [] := fun hnil => hne (hnil ▸ hperm).symm.eq_nil
      obtain ⟨head, hin, hhead, hlatest, -⟩ := h.selectHead_latest horder hne
      obtain ⟨head', hin', hhead', hlatest', -⟩ :=
        (h.perm hperm).selectHead_latest horder hother
      rw [hhead, hhead', hfree.unique hcids head' (hperm.mem_iff.mp hin') head hin
        (fun y hy => hlatest' y (hperm.mem_iff.mpr hy)) hlatest]
  unmodified heap ref href := by
    refine ⟨?_, fun i hi => selectHeadAt_frame heap (some ref) hi⟩
    rw [selectHeadAt_result, List.getD_eq_getElem?_getD, href, Option.getD_some]

end Delivered

/-- The head of delivered entries is deterministic exactly when no tie has to be broken. -/
theorem deterministicHead_iff (horder : TotalOrder localeCompare)
    {entries : List (ClientEntry Pubkey)} (h : Delivered entries) :
    DeterministicHead localeCompare entries ↔ TieFree localeCompare entries :=
  ⟨h.tieFree_of_deterministic horder, h.deterministic_of_tieFree horder⟩

/-- An entry of the second 1000, decoded to the object `ref`. -/
def tieEntry (ref : Nat) (manifestCid : String) : ClientEntry Nat where
  manifestCid
  manifestCidHash := List.replicate 32 0
  publishedAt := .bn ref 1000
  publisher := 7
  manifestSchemaVersion := 1

def sampleTie : List (ClientEntry Nat) := [tieEntry 0 "b_cid_aaaaa", tieEntry 1 "b_cid_zzzzz"]

theorem sampleTie_delivered : Delivered sampleTie := by
  refine ⟨fun e he => ?_, by simp [sampleTie, tieEntry, PublishedAt.strictEq]⟩
  simp only [sampleTie, List.mem_cons, List.not_mem_nil, or_false] at he
  rcases he with rfl | rfl
  · exact ⟨0, 1000, rfl, by decide, by decide⟩
  · exact ⟨1, 1000, rfl, by decide, by decide⟩

theorem deterministicHead_iff_sample :
    DeterministicHead sampleCompare sampleTie ↔ TieFree sampleCompare sampleTie :=
  deterministicHead_iff sampleCompare_order sampleTie_delivered

/-- Of two entries of one second the head is the one that is listed first, not the one with the
greatest CID. -/
theorem tie_is_not_broken :
    Delivered sampleTie ∧ selectHead sampleCompare sampleTie = some (tieEntry 0 "b_cid_aaaaa") ∧
      ¬ DeterministicHead sampleCompare sampleTie := by
  have hfirst : selectHead sampleCompare sampleTie = some (tieEntry 0 "b_cid_aaaaa") := by
    refine sampleTie_delivered.selectHead_first sampleCompare_order [] rfl
      (fun e he => ?_) (by simp)
    simp only [sampleTie, List.mem_cons, List.not_mem_nil, or_false] at he
    rcases he with rfl | rfl <;> exact Int.le_refl _
  refine ⟨sampleTie_delivered, hfirst, fun h => ?_⟩
  rcases (h.greatest _ hfirst).2 (tieEntry 1 "b_cid_zzzzz") (by simp [sampleTie]) with hlt | hle
  · exact absurd hlt (Int.lt_irrefl _)
  · exact absurd hle.2 (by decide)

end SovereignJedi.Registry
