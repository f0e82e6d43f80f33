import SalesExplorer.Proofs.Json.Members
import SalesExplorer.Proofs.Wire.Layout

/-!
# Ways to write a record

**Theorem (`SameRecord.decode`).** A record may be written as an object with its keys in any order
and, unless its layout is strict, with other keys between them, or as the array of all its fields.
However it is written, and whatever its fields are replaced with that is read alike, the same record
is read, or none.

Reading an object goes through its members one by one and stops at the first problem. What it comes
to is said without an order (`readMembers_eq_ok_iff`): all keys can be read, in a strict layout they
are fields, no field comes twice, and the fields are read into the draft one after another. The
order of these does not matter where each field has a place of its own in the draft
(`Independent.of_slots`).

Which problem is told does depend on the order. So only the values are compared (`SameValue`).
-/

namespace SalesExplorer

/-! ## The same value -/

section SameValue

variable {α β ε : Type}

/-- Two readings give the same value, or none. -/
def SameValue (x y : Except ε α) : Prop := ∀ a, x = .ok a ↔ y = .ok a

theorem SameValue.refl (x : Except ε α) : SameValue x x := fun _ => Iff.rfl

theorem SameValue.symm {x y : Except ε α} (h : SameValue x y) : SameValue y x :=
  fun a => (h a).symm

theorem SameValue.trans {x y z : Except ε α} (h : SameValue x y) (h' : SameValue y z) :
    SameValue x z :=
  fun a => (h a).trans (h' a)

theorem SameValue.bind {x y : Except ε α} {f g : α → Except ε β} (h : SameValue x y)
    (hfg : ∀ a, SameValue (f a) (g a)) : SameValue (x >>= f) (y >>= g) := by
  intro b
  simp only [bind_eq_ok_iff, h _, hfg _ b]

theorem SameValue.mapM {f : α → Except ε β} {l l' : List α}
    (h : List.Forall₂ (fun a a' => SameValue (f a) (f a')) l l') :
    SameValue (l.mapM f) (l'.mapM f) := by
  induction h with
  | nil => exact .refl _
  | cons ha _ ih =>
    rw [List.mapM_cons, List.mapM_cons]
    exact ha.bind fun _ => ih.bind fun _ => .refl _

end SameValue

namespace Wire

namespace Layout

variable {α δ : Type} {L : Layout δ α} {d e : δ} {seen : List Nat}
  {ms ms' : List (Option String × Source)}

/-! ## Members without an order -/

/-- A key that an object may have. -/
def Admits (L : Layout δ α) (key : Option String) : Prop :=
  ∃ k, key = some k ∧ (L.strict = true → k ∈ L.fields)

/-- The fields among the members, by their index. -/
def known (L : Layout δ α) (ms : List (Option String × Source)) : List (Nat × Source) :=
  ms.filterMap fun m => m.1.bind fun k => (L.fields.idxOf? k).map fun i => (i, m.2)

/-- Read fields into the draft, one after another. -/
def readFields (L : Layout δ α) (l : List (Nat × Source)) (d : δ) : Except Problem δ :=
  l.foldlM (fun d m => L.read d m.1 m.2) d

theorem readFields_cons (m : Nat × Source) (l : List (Nat × Source)) (d : δ) :
    L.readFields (m :: l) d = L.read d m.1 m.2 >>= L.readFields l := by
  rw [readFields, List.foldlM_cons]
  rfl

theorem readFields_cons_cons (m m' : Nat × Source) (l : List (Nat × Source)) (d : δ) :
    L.readFields (m :: m' :: l) d =
      (L.read d m.1 m.2 >>= fun d => L.read d m'.1 m'.2) >>= L.readFields l := by
  rw [readFields_cons, bind_assoc]
  exact bind_congr fun d => readFields_cons m' l d

theorem known_cons_of_none {k : String} (hk : L.fields.idxOf? k = none) (v : Source)
    (ms : List (Option String × Source)) : L.known ((some k, v) :: ms) = L.known ms := by
  simp [known, hk]

theorem known_cons_of_some {k : String} {i : Nat} (hk : L.fields.idxOf? k = some i) (v : Source)
    (ms : List (Option String × Source)) :
    L.known ((some k, v) :: ms) = (i, v) :: L.known ms := by
  simp [known, hk]

theorem lt_of_idxOf?_eq_some {k : String} {i : Nat} (h : L.fields.idxOf? k = some i) :
    i < L.fields.length ∧ k ∈ L.fields := by
  obtain ⟨hlt, hk, -⟩ := List.idxOf?_eq_some_iff.1 h
  exact ⟨hlt, hk ▸ List.getElem_mem hlt⟩

theorem lt_of_mem_known {m : Nat × Source} (h : m ∈ L.known ms) : m.1 < L.fields.length := by
  obtain ⟨member, -, hm⟩ := List.mem_filterMap.1 h
  obtain ⟨k, -, hk⟩ := Option.bind_eq_some_iff.1 hm
  obtain ⟨i, hi, rfl⟩ := Option.map_eq_some_iff.1 hk
  exact (lt_of_idxOf?_eq_some hi).1

theorem readMembers_cons_of_none {k : String} (hk : L.fields.idxOf? k = none) (v : Source)
    (ms : List (Option String × Source)) (seen : List Nat) (d : δ) :
    L.readMembers ((some k, v) :: ms) seen d =
      if L.strict then .error (.unknownField k L.fields) else L.readMembers ms seen d := by
  simp only [readMembers, hk]

theorem readMembers_cons_of_some {k : String} {i : Nat} (hk : L.fields.idxOf? k = some i)
    (v : Source) (ms : List (Option String × Source)) (seen : List Nat) (d : δ) :
    L.readMembers ((some k, v) :: ms) seen d =
      if i ∈ seen then .error (.repeatedField k)
      else L.read d i v >>= L.readMembers ms (i :: seen) := by
  simp only [readMembers, hk]

/-- **What reading an object comes to.** -/
theorem readMembers_eq_ok_iff : L.readMembers ms seen d = .ok e ↔
    (∀ m ∈ ms, L.Admits m.1) ∧ (∀ i ∈ (L.known ms).map Prod.fst, i ∉ seen) ∧
      ((L.known ms).map Prod.fst).Nodup ∧ L.readFields (L.known ms) d = .ok e := by
  induction ms generalizing seen d with
  | nil => simp [readMembers, known, readFields, pure, Except.pure]
  | cons m ms ih =>
    obtain ⟨key, v⟩ := m
    cases key with
    | none => simp [readMembers, Admits]
    | some k =>
      rw [List.forall_mem_cons]
      cases hk : L.fields.idxOf? k with
      | none =>
        have hadmits : L.Admits (some k) ↔ ¬L.strict = true := by
          simp [Admits, List.idxOf?_eq_none_iff.1 hk]
        rw [readMembers_cons_of_none hk, known_cons_of_none hk, hadmits, and_assoc, ← ih]
        by_cases hstrict : L.strict = true <;> simp [hstrict]
      | some i =>
        have hadmits : L.Admits (some k) := ⟨k, rfl, fun _ => (lt_of_idxOf?_eq_some hk).2⟩
        rw [readMembers_cons_of_some hk, known_cons_of_some hk, List.map_cons,
          List.forall_mem_cons, List.nodup_cons, readFields_cons, bind_eq_ok_iff]
        by_cases hi : i ∈ seen
        · simp [hi]
        · simp only [if_neg hi, bind_eq_ok_iff, ih]
          constructor
          · rintro ⟨d', hread, hall, hseen, hnodup, hrest⟩
            refine ⟨⟨hadmits, hall⟩, ⟨hi, ?_⟩, ⟨?_, hnodup⟩, d', hread, hrest⟩
            · intro j hj hmem
              exact hseen j hj (List.mem_cons_of_mem i hmem)
            · intro hmem
              exact hseen i hmem List.mem_cons_self
          · rintro ⟨⟨-, hall⟩, ⟨-, hseen⟩, ⟨hnew, hnodup⟩, d', hread, hrest⟩
            refine ⟨d', hread, hall, ?_, hnodup, hrest⟩
            intro j hj
            refine List.not_mem_cons_of_ne_of_not_mem ?_ (hseen j hj)
            rintro rfl
            exact hnew hj

/-! ## Fields without an order -/

/-- Every field has a place of its own in the draft. -/
structure Independent (L : Layout δ α) : Prop where
  nodup : L.fields.Nodup
  commute : ∀ {i j : Nat}, i < L.fields.length → j < L.fields.length → i ≠ j →
    ∀ d v w, SameValue (L.read d i v >>= fun d => L.read d j w)
      (L.read d j w >>= fun d => L.read d i v)
  finish : ∀ absent absent' d, SameValue (L.finish absent d) (L.finish absent' d)

theorem Independent.readFields_perm (hL : L.Independent) {l l' : List (Nat × Source)}
    (h : l.Perm l') (hlt : ∀ m ∈ l, m.1 < L.fields.length) (hnodup : (l.map Prod.fst).Nodup)
    (d : δ) : SameValue (L.readFields l d) (L.readFields l' d) := by
  induction h generalizing d with
  | nil => exact .refl _
  | cons m _ ih =>
    rw [List.map_cons, List.nodup_cons] at hnodup
    rw [readFields_cons, readFields_cons]
    exact (SameValue.refl _).bind (ih (List.forall_mem_cons.1 hlt).2 hnodup.2)
  | swap m m' l =>
    simp only [List.forall_mem_cons] at hlt
    have hne : m'.1 ≠ m.1 := by
      rintro heq
      simp [heq] at hnodup
    rw [readFields_cons_cons, readFields_cons_cons]
    exact (hL.commute hlt.1 hlt.2.1 hne d m'.2 m.2).bind fun _ => .refl _
  | trans hl _ ih ih' =>
    refine (ih hlt hnodup d).trans (ih' ?_ ?_ d)
    · intro m hm
      exact hlt m (hl.mem_iff.2 hm)
    · exact (hl.map _).nodup_iff.1 hnodup

theorem Independent.readMembers_perm (hL : L.Independent) (h : ms.Perm ms') (seen : List Nat)
    (d : δ) : SameValue (L.readMembers ms seen d) (L.readMembers ms' seen d) := by
  intro e
  have hknown : (L.known ms).Perm (L.known ms') := h.filterMap _
  simp only [readMembers_eq_ok_iff, h.mem_iff, (hknown.map _).mem_iff, (hknown.map _).nodup_iff]
  refine and_congr_right fun _ => and_congr_right fun _ => and_congr_right fun hnodup => ?_
  exact hL.readFields_perm hknown (fun m => lt_of_mem_known) ((hknown.map _).nodup_iff.2 hnodup) d e

/-! ### Fields by their places -/

/-- A place of the draft for the value of one field. -/
structure Slot (δ : Type) where
  {Value : Type}
  read : Decoder Value
  store : Value → δ → δ

namespace Slot

/-- Read the field into the draft. -/
def into (a : Slot δ) (d : δ) : Decoder δ := fun s => do return a.store (← a.read s) d

/-- Neither place is part of the other. -/
def Apart (a b : Slot δ) : Prop := ∀ x y d, b.store y (a.store x d) = a.store x (b.store y d)

theorem Apart.symm {a b : Slot δ} (h : a.Apart b) : b.Apart a := fun y x d => (h x y d).symm

/-- Of two places that are apart, either may be filled first. -/
theorem Apart.into {a b : Slot δ} (h : a.Apart b) (d : δ) (v w : Source) :
    SameValue (a.into d v >>= fun d => b.into d w) (b.into d w >>= fun d => a.into d v) := by
  intro e
  simp only [Slot.into, bind_eq_ok_iff, pure, Except.pure, Except.ok.injEq]
  constructor
  · rintro ⟨_, ⟨x, hx, rfl⟩, y, hy, he⟩
    exact ⟨_, ⟨y, hy, rfl⟩, x, hx, h x y d ▸ he⟩
  · rintro ⟨_, ⟨y, hy, rfl⟩, x, hx, he⟩
    exact ⟨_, ⟨x, hx, rfl⟩, y, hy, h x y d ▸ he⟩

end Slot

/-- **Places of their own.** The fields of a layout that are read into places apart from each other
are independent. -/
theorem Independent.of_slots (slots : List (Slot δ)) (hnodup : L.fields.Nodup)
    (hread : (List.range L.fields.length).map (fun i d => L.read d i) = slots.map Slot.into)
    (hapart : slots.Pairwise Slot.Apart)
    (hfinish : ∀ absent absent' d, SameValue (L.finish absent d) (L.finish absent' d)) :
    L.Independent where
  nodup := hnodup
  commute {i j} hi hj hne d v w := by
    have hlength : slots.length = L.fields.length := by simpa using congrArg List.length hread.symm
    have hslot {i : Nat} (hi : i < slots.length) : (L.read · i) = slots[i].into := by
      have hi' : i < L.fields.length := hlength ▸ hi
      simpa [hi, hi'] using congrArg (·[i]?) hread
    rw [← hlength] at hi hj
    have hij : slots[i].Apart slots[j] := by
      rcases Nat.lt_or_gt_of_ne hne with h | h
      · exact List.pairwise_iff_getElem.1 hapart i j hi hj h
      · exact (List.pairwise_iff_getElem.1 hapart j i hj hi h).symm
    simp only [congrFun (hslot hi), congrFun (hslot hj)]
    exact hij.into d v w
  finish := hfinish

/-! ## Fields replaced -/

theorem readMembers_congr {k : String} {i : Nat} (hk : L.fields.idxOf? k = some i) {v v' : Source}
    (hread : ∀ d, SameValue (L.read d i v) (L.read d i v'))
    (before after : List (Option String × Source)) (seen : List Nat) (d : δ) :
    SameValue (L.readMembers (before ++ (some k, v) :: after) seen d)
      (L.readMembers (before ++ (some k, v') :: after) seen d) := by
  induction before generalizing seen d with
  | nil =>
    rw [List.nil_append, List.nil_append, readMembers_cons_of_some hk, readMembers_cons_of_some hk]
    split_ifs
    · exact .refl _
    · exact (hread d).bind fun _ => .refl _
  | cons m before ih =>
    obtain ⟨key, w⟩ := m
    rw [List.cons_append, List.cons_append]
    cases key with
    | none => exact .refl _
    | some k' =>
      cases hk' : L.fields.idxOf? k' with
      | none =>
        rw [readMembers_cons_of_none hk', readMembers_cons_of_none hk']
        split_ifs
        · exact .refl _
        · exact ih seen d
      | some j =>
        rw [readMembers_cons_of_some hk', readMembers_cons_of_some hk']
        split_ifs
        · exact .refl _
        · exact (SameValue.refl _).bind (ih (j :: seen))

theorem readItems_congr {i : Nat} (before after : List Source) {v v' : Source}
    (hread : ∀ d, SameValue (L.read d (i + before.length) v) (L.read d (i + before.length) v'))
    (d : δ) : SameValue (L.readItems (before ++ v :: after) i d)
      (L.readItems (before ++ v' :: after) i d) := by
  induction before generalizing i d with
  | nil =>
    simp only [List.nil_append, readItems]
    split_ifs
    · exact (hread d).bind fun _ => .refl _
    · exact .refl _
  | cons w before ih =>
    simp only [List.cons_append, readItems]
    split_ifs
    · refine (SameValue.refl _).bind (ih fun d => ?_)
      rw [Nat.add_right_comm, Nat.add_assoc]
      exact hread d
    · exact .refl _

/-! ## All fields in an array -/

theorem readItems_ofItems (hnodup : L.fields.Nodup) {items : List Json} {i : Nat}
    (hlength : i + items.length = L.fields.length) (d : δ) :
    L.readItems (Source.ofItems items) i d =
      ((L.fields.drop i).zip items).foldlM L.readMember d := by
  induction items generalizing i d with
  | nil =>
    rw [Source.ofItems, readItems, List.zip_nil_right]
    rfl
  | cons j items ih =>
    rw [List.length_cons] at hlength
    have hi : i < L.fields.length := by omega
    rw [Source.ofItems, readItems, if_pos hi, List.drop_eq_getElem_cons hi, List.zip_cons_cons,
      List.foldlM_cons, readMember, hnodup.idxOf_getElem i hi]
    exact bind_congr fun d => ih (by omega) d

theorem readMembers_zip (hnodup : L.fields.Nodup) {items : List Json}
    (hlength : items.length = L.fields.length) (d : δ) :
    L.readMembers (Source.ofMembers (L.fields.zip items)) [] d =
      L.readItems (Source.ofItems items) 0 d := by
  have hkeys : Members.keys (L.fields.zip items) = L.fields :=
    List.map_fst_zip (Nat.le_of_eq hlength.symm)
  rw [readMembers_ofMembers (by simp [hkeys]) (by rwa [hkeys]) (by simp),
    readItems_ofItems hnodup (by omega), List.drop_zero]

/-! ## Records that are read -/

theorem exists_read_of_mem {l : List (Nat × Source)} {m : Nat × Source}
    (h : L.readFields l d = .ok e) (hm : m ∈ l) : ∃ d e, L.read d m.1 m.2 = .ok e := by
  induction l generalizing d with
  | nil => exact absurd hm List.not_mem_nil
  | cons m' l ih =>
    rw [readFields_cons] at h
    obtain ⟨d', hd', hl⟩ := bind_eq_ok_iff.1 h
    rcases List.mem_cons.1 hm with rfl | hm
    · exact ⟨d, d', hd'⟩
    · exact ih hl hm

/-- A record that is read has read all its fields. -/
theorem exists_read_of_readMembers {k : String} {i : Nat} {v : Source}
    (h : L.readMembers ms seen d = .ok e) (hk : L.fields.idxOf? k = some i)
    (hv : (some k, v) ∈ ms) : ∃ d e, L.read d i v = .ok e := by
  have hmem : (i, v) ∈ L.known ms := List.mem_filterMap.2 ⟨_, hv, by simp [hk]⟩
  exact exists_read_of_mem (readMembers_eq_ok_iff.1 h).2.2.2 hmem

end Layout

/-! ## The same record -/

/-- Ways to write one record, where `field` tells for each field what it may be replaced with. -/
inductive SameRecord (fields : List String) (strict : Bool) (field : Nat → Json → Json → Prop) :
    Json → Json → Prop
  | refl (v : Json) : SameRecord fields strict field v v
  | symm {v w : Json} : SameRecord fields strict field v w → SameRecord fields strict field w v
  | trans {u v w : Json} : SameRecord fields strict field u v → SameRecord fields strict field v w →
      SameRecord fields strict field u w
  /-- The keys come in another order. -/
  | reorder {ms ms' : Members} : ms.Perm ms' → SameRecord fields strict field (.obj ms) (.obj ms')
  /-- There is a key that is no field. -/
  | extend {ms : Members} {k : String} {v : Json} : strict = false → k ∉ fields →
      SameRecord fields strict field (.obj ms) (.obj ((k, v) :: ms))
  /-- An object of all fields becomes the array of their values. -/
  | positional {items : List Json} : items.length = fields.length →
      SameRecord fields strict field (.obj (fields.zip items)) (.arr items)
  /-- A field of an object is replaced. -/
  | member {before after : Members} {k : String} {i : Nat} {v v' : Json} :
      fields.idxOf? k = some i → field i v v' →
      SameRecord fields strict field (.obj (before ++ (k, v) :: after))
        (.obj (before ++ (k, v') :: after))
  /-- A field of an array is replaced. -/
  | item {before after : List Json} {v v' : Json} : field before.length v v' →
      SameRecord fields strict field (.arr (before ++ v :: after)) (.arr (before ++ v' :: after))

variable {α δ : Type} {L : Layout δ α} {field : Nat → Json → Json → Prop} {v v' : Json}

open Layout

/-- Keys that are no fields may be left out. -/
theorem SameRecord.append {fields : List String} {rest : Members}
    (hrest : ∀ m ∈ rest, m.1 ∉ fields) (ms : Members) :
    SameRecord fields false field (.obj ms) (.obj (rest ++ ms)) := by
  induction rest with
  | nil => exact .refl _
  | cons m rest ih =>
    obtain ⟨hm, hrest⟩ := List.forall_mem_cons.1 hrest
    exact .trans (ih hrest) (.extend rfl hm)

/-- An object may be written with nothing but its fields, in their order. -/
theorem SameRecord.pick {fields : List String} {ms : Members} (hfields : fields.Nodup)
    (hkeys : ms.keys.Nodup) : SameRecord fields false field (.obj ms) (.obj (ms.pick fields)) := by
  have hperm : (ms.filter (·.1 ∈ fields)).Perm (ms.pick fields) := by
    apply (List.perm_ext_iff_of_nodup (hkeys.of_map.filter _) (Members.nodup_pick hfields)).2
    intro m
    rw [Members.mem_pick, List.mem_filter, decide_eq_true_eq, and_comm]
    exact and_congr_right fun _ => Members.mem_iff_get?_eq_some hkeys
  have hall : ms.Perm (ms.filter (fun m => !decide (m.1 ∈ fields)) ++ ms.pick fields) :=
    (List.filter_append_perm (·.1 ∈ fields) ms).symm.trans
      (List.perm_append_comm.trans (hperm.append_left _))
  refine .trans (.reorder hall) (.symm (.append ?_ _))
  intro m hm
  simpa using (List.mem_filter.1 hm).2

theorem ofMembers_eq_map (ms : Members) :
    Source.ofMembers ms = ms.map fun m => (some m.1, Source.ofJson m.2) := by
  induction ms with
  | nil => rw [Source.ofMembers, List.map_nil]
  | cons m ms ih =>
    obtain ⟨k, j⟩ := m
    rw [Source.ofMembers, ih, List.map_cons]

theorem mem_fields_of_decode {medium : Medium} {ms : Members} {k : String} {x : α}
    (hstrict : L.strict = true) (h : L.decode medium (Source.ofJson (.obj ms)) = .ok x)
    (hk : k ∈ ms.keys) : k ∈ L.fields := by
  obtain ⟨d, hd, -⟩ := bind_eq_ok_iff.1 h
  obtain ⟨hadmits, -⟩ := readMembers_eq_ok_iff.1 hd
  obtain ⟨m, hm, rfl⟩ := List.mem_map.1 hk
  rw [ofMembers_eq_map] at hadmits
  obtain ⟨k, hk, hfields⟩ := hadmits _ (List.mem_map_of_mem hm)
  cases hk
  exact hfields hstrict

/-- **However a record is written,** the same one is read. -/
theorem SameRecord.decode (hL : L.Independent) (medium : Medium)
    (hfield : ∀ i v v', field i v v' →
      ∀ d, SameValue (L.read d i (Source.ofJson v)) (L.read d i (Source.ofJson v')))
    (h : SameRecord L.fields L.strict field v v') :
    SameValue (L.decode medium (Source.ofJson v)) (L.decode medium (Source.ofJson v')) := by
  induction h with
  | refl v => exact .refl _
  | symm _ ih => exact ih.symm
  | trans _ _ ih ih' => exact ih.trans ih'
  | reorder hperm =>
    simp only [Source.ofJson, Layout.decode, ofMembers_eq_map]
    exact (hL.readMembers_perm (hperm.map _) [] L.blank).bind fun _ => .refl _
  | @extend ms k v hstrict hk =>
    simp only [Source.ofJson, Source.ofMembers, Layout.decode,
      readMembers_cons_of_none (List.idxOf?_eq_none_iff.2 hk), hstrict]
    exact .refl _
  | @positional items hlength =>
    have hle : (Source.ofItems items).length ≤ L.fields.length := by
      rw [Source.ofItems_eq_map, List.length_map]
      exact Nat.le_of_eq hlength
    simp only [Source.ofJson, Layout.decode, readMembers_zip hL.nodup hlength, if_pos hle]
    refine (SameValue.refl _).bind fun d => ?_
    intro x
    simp only [bind_eq_ok_iff, Except.ok.injEq, exists_eq_right]
    exact hL.finish _ _ d x
  | @member before after k i v v' hk hv =>
    simp only [Source.ofJson, Layout.decode, ofMembers_eq_map, List.map_append, List.map_cons]
    exact (readMembers_congr hk (hfield i v v' hv) _ _ [] L.blank).bind fun _ => .refl _
  | @item before after v v' hv =>
    simp only [Source.ofJson, Layout.decode, Source.ofItems_eq_map, List.map_append, List.map_cons,
      List.length_append, List.length_cons]
    refine (readItems_congr _ _ (fun d => ?_) L.blank).bind fun _ => .refl _
    rw [Nat.zero_add, List.length_map]
    exact hfield _ v v' hv d

end Wire

end SalesExplorer
