import SalesExplorer.Options.Basic
import SalesExplorer.Proofs.Json.Text
import SalesExplorer.Proofs.Json.Whole
import SalesExplorer.Proofs.Wire.QueryForms

/-!
# Option lists on the wire

**Theorem (`option_lists_exact`).** An array is read as a list of options exactly if each of its
items writes one (`WritesOption`): a text, an object with an identifier and a name, or the array of
these two. The list has the options in the order of the items. A list that is encoded and decoded
again, as a value or as a text, is the same.

An item is taken as a whole first, so that its keys are distinct from then on. An object is
read as nothing but its fields, in their order (`SameRecord.pick`), which leaves four objects to
look at, of which one has both fields (`decode_record_iff`).

An encoded identifier is a text, also where it looks like a number, and a text is never taken for
one.
-/

namespace SalesExplorer.Wire

open Layout
open Json (DistinctKeys)

/-! ## What writes an option -/

/-- The identifier that a value is: a text as it stands, or a number by its JSON text. -/
inductive Identifies : Json → String → Prop
  | text {s : String} : Identifies (.str s) s
  | int {n : Int} : Identifies (.int n) (Json.int n).text
  | float {x : Binary64.Finite} : Identifies (.float x) (Json.float x).text

/-- The option that a value writes. A bare text is both identifier and name; an object may have
further keys. -/
inductive WritesOption : Json → SelectOption → Prop
  | text {s : String} : WritesOption (.str s) ⟨s, s⟩
  | record {ms : Members} {id : Json} {i name : String} : ms.get? "id" = some id →
      Identifies id i → ms.get? "name" = some (.str name) → WritesOption (.obj ms) ⟨i, name⟩
  | pair {id : Json} {i name : String} : Identifies id i →
      WritesOption (.arr [id, .str name]) ⟨i, name⟩

/-! ## Fields -/

theorem optionId_eq_ok_iff {j : Json} {i : String} : optionId j = .ok i ↔ Identifies j i := by
  constructor
  · intro h
    cases j with
    | str s => cases h; exact .text
    | int n => cases h; exact .int
    | float x => cases h; exact .float
    | _ => cases h
  · intro h
    cases h <;> rfl

theorem whole_eq_ok_iff {s : Source} {j : Json} : whole s = .ok j ↔ s.whole? = some j := by
  unfold whole
  cases s.whole? <;> simp

theorem whole_ofJson {j : Json} (h : j.DistinctKeys) : whole (Source.ofJson j) = .ok j :=
  whole_eq_ok_iff.2 (Source.whole?_ofJson h)

theorem text_ofJson_eq_ok_iff {j : Json} {t : String} :
    text (Source.ofJson j) = .ok t ↔ j = .str t := by
  cases j <;> simp [Source.ofJson, text]

theorem independent_optionRecordLayout : optionRecordLayout.Independent :=
  .of_slots
    [⟨whole, fun x d => { d with id := some x }⟩, ⟨text, fun x d => { d with name := some x }⟩]
    (by simp [optionRecordLayout]) rfl (by simp [Slot.Apart])
    fun absent absent' _ => sameValue_required absent absent'

/-! ## Records -/

section Records

variable {ms : Members} {items : List Json} {id v w : Json} {name : String}
  {d e : OptionDraft}

theorem readMember_id_iff (hv : v.DistinctKeys) :
    optionRecordLayout.readMember d ("id", v) = .ok e ↔ e = { d with id := some v } := by
  change (whole (Source.ofJson v) >>= fun j => pure { d with id := some j }) = _ ↔ _
  rw [whole_ofJson hv]
  simp [pure, Except.pure, bind, Except.bind, eq_comm]

theorem readMember_name_iff : optionRecordLayout.readMember d ("name", w) = .ok e ↔
    ∃ t, w = .str t ∧ e = { d with name := some t } := by
  change (text (Source.ofJson w) >>= fun t => pure { d with name := some t }) = _ ↔ _
  simp only [bind_eq_ok_iff, text_ofJson_eq_ok_iff, pure, Except.pure, Except.ok.injEq,
    eq_comm (a := e)]

theorem finish_eq_ok_iff {absent : String → Problem} :
    optionRecordLayout.finish absent d = .ok (id, name) ↔ d.id = some id ∧ d.name = some name := by
  change (required absent "id" d.id >>= fun j => required absent "name" d.name >>= fun t =>
    pure (j, t)) = _ ↔ _
  simp [bind_eq_ok_iff, required_eq_ok_iff, pure, Except.pure]

/-- An object is a record if it has both fields and its name is a text. -/
theorem decode_record_iff (h : (Json.obj ms).DistinctKeys) :
    optionRecordLayout.decode .memory (Source.ofJson (.obj ms)) = .ok (id, name) ↔
      ms.get? "id" = some id ∧ ms.get? "name" = some (.str name) := by
  obtain ⟨hkeys, hms⟩ := Json.distinctKeys_obj_iff.1 h
  have hfields : optionRecordLayout.fields.Nodup := independent_optionRecordLayout.nodup
  have hblank : optionRecordLayout.blank = {} := rfl
  have hpick : SameRecord ["id", "name"] false (fun _ => Eq) (.obj ms)
      (.obj (ms.pick ["id", "name"])) := .pick hfields hkeys
  rw [SameRecord.decode_of_eq independent_optionRecordLayout hpick,
    decode_ofJson_fields .memory hfields (Members.keys_pick_sublist ms ["id", "name"]),
    bind_eq_ok_iff]
  simp only [finish_eq_ok_iff, hblank, Members.pick, List.filterMap_cons, List.filterMap_nil]
  cases hid : ms.get? "id" with
  | none =>
    cases hname : ms.get? "name" with
    | none => simp [pure, Except.pure]
    | some w => simp [bind_eq_ok_iff, readMember_name_iff, pure, Except.pure]
  | some v =>
    have hv : v.DistinctKeys := hms _ ((Members.mem_iff_get?_eq_some hkeys).2 hid)
    cases hname : ms.get? "name" with
    | none => simp [bind_eq_ok_iff, readMember_id_iff hv, pure, Except.pure]
    | some w =>
      simp [bind_eq_ok_iff, readMember_id_iff hv, readMember_name_iff, pure, Except.pure, and_comm]

/-- An array is a record if it has the two fields and nothing else. -/
theorem decode_pair_iff (h : (Json.arr items).DistinctKeys) :
    optionRecordLayout.decode .memory (Source.ofJson (.arr items)) = .ok (id, name) ↔
      items = [id, .str name] := by
  match items with
  | [] =>
    have hnot : optionRecordLayout.decode .memory (Source.ofJson (.arr [])) ≠ .ok (id, name) := by
      intro h
      cases h
    simp [hnot]
  | [v] =>
    have hnot : optionRecordLayout.decode .memory (Source.ofJson (.arr [v])) ≠ .ok (id, name) := by
      intro h
      obtain ⟨d, hd, h⟩ := bind_eq_ok_iff.1 h
      obtain ⟨e, he, hd⟩ := bind_eq_ok_iff.1 hd
      obtain ⟨j, -, he⟩ := bind_eq_ok_iff.1 he
      cases he
      cases hd
      cases h
    simp [hnot]
  | [v, w] =>
    have hsame : SameRecord ["id", "name"] false (fun _ => Eq)
        (.obj (["id", "name"].zip [v, w])) (.arr [v, w]) := .positional rfl
    have hkeys : (Json.obj [("id", v), ("name", w)]).DistinctKeys := by
      simpa [Json.distinctKeys_obj_iff, Json.distinctKeys_arr_iff, Members.keys] using h
    rw [← SameRecord.decode_of_eq independent_optionRecordLayout hsame]
    simp [decode_record_iff hkeys, Members.get?_cons]
  | v :: w :: x :: rest =>
    have hnot : optionRecordLayout.decode .memory (Source.ofJson (.arr (v :: w :: x :: rest))) ≠
        .ok (id, name) := by
      intro h
      obtain ⟨d, -, h⟩ := bind_eq_ok_iff.1 h
      obtain ⟨y, -, h⟩ := bind_eq_ok_iff.1 h
      cases h
    simp [hnot]

end Records

/-! ## Options -/

variable {s : Source} {o : SelectOption} {options : List SelectOption}

/-- **An option is read** from what writes one, once that is taken as a whole. -/
theorem selectOption_eq_ok_iff :
    selectOption s = .ok o ↔ ∃ j, s.whole? = some j ∧ WritesOption j o := by
  rw [selectOption, bind_eq_ok_iff]
  simp only [whole_eq_ok_iff]
  refine exists_congr fun j => and_congr_right fun hj => ?_
  have hkeys := Source.distinctKeys_of_whole? hj
  cases j with
  | str t =>
    constructor
    · intro h
      cases h
      exact .text
    · intro h
      cases h
      rfl
  | obj ms =>
    simp only [bind_eq_ok_iff, Prod.exists, decode_record_iff hkeys, optionId_eq_ok_iff]
    constructor
    · intro ⟨id, name, ⟨hid, hname⟩, i, hi, h⟩
      cases h
      exact .record hid hi hname
    · intro h
      cases h with
      | record hid hi hname => exact ⟨_, _, ⟨hid, hname⟩, _, hi, rfl⟩
  | arr items =>
    simp only [bind_eq_ok_iff, Prod.exists, decode_pair_iff hkeys, optionId_eq_ok_iff]
    constructor
    · intro ⟨id, name, hitems, i, hi, h⟩
      cases h
      exact hitems ▸ .pair hi
    · intro h
      cases h with
      | pair hi => exact ⟨_, _, rfl, _, hi, rfl⟩
  | _ =>
    constructor
    · intro h
      cases h
    · intro h
      cases h

/-- In memory, where keys are distinct, a value writes the option itself. -/
theorem selectOption_ofJson_eq_ok_iff {j : Json} (h : j.DistinctKeys) :
    selectOption (Source.ofJson j) = .ok o ↔ WritesOption j o := by
  rw [selectOption_eq_ok_iff, Source.whole?_ofJson h]
  simp

theorem selectOptions_eq_ok_iff : selectOptions s = .ok options ↔
    ∃ items, s = .arr items ∧
      List.Forall₂ (fun s o => ∃ j, s.whole? = some j ∧ WritesOption j o) items options := by
  simp only [← selectOption_eq_ok_iff]
  cases s with
  | arr items =>
    simp only [Source.arr.injEq, exists_eq_left']
    exact mapM_eq_ok_iff_forall₂
  | _ => simp [selectOptions, list]

section Memory

variable {items : List Json} (h : ∀ j ∈ items, j.DistinctKeys)

theorem selectOptions_ofJson (items : List Json) : selectOptions (Source.ofJson (.arr items)) =
    (items.map Source.ofJson).mapM selectOption := by
  rw [Source.ofJson, Source.ofItems_eq_map]
  rfl

include h

theorem selectOptions_ofJson_eq_ok_iff :
    selectOptions (Source.ofJson (.arr items)) = .ok options ↔
      List.Forall₂ WritesOption items options := by
  have hall : ∀ R : Json → SelectOption → Prop, List.Forall₂ R items options ↔
      List.Forall₂ (fun j o => j.DistinctKeys ∧ R j o) items options := by
    intro R
    rw [List.forall₂_and_left, and_iff_right h]
  have hitem : ∀ j o, j.DistinctKeys ∧ selectOption (Source.ofJson j) = .ok o ↔
      j.DistinctKeys ∧ WritesOption j o :=
    fun j o => and_congr_right selectOption_ofJson_eq_ok_iff
  rw [selectOptions_ofJson, mapM_eq_ok_iff_forall₂, List.forall₂_map_left_iff, hall,
    hall WritesOption]
  simp only [hitem]

theorem exists_selectOptions_ofJson_iff :
    (∃ options, selectOptions (Source.ofJson (.arr items)) = .ok options) ↔
      ∀ j ∈ items, ∃ o, WritesOption j o := by
  simp only [selectOptions_ofJson, exists_mapM_eq_ok_iff, List.forall_mem_map]
  exact forall₂_congr fun j hj => exists_congr fun o => selectOption_ofJson_eq_ok_iff (h j hj)

end Memory

/-! ## Options read back -/

theorem writesOption_toJson (o : SelectOption) : WritesOption o.toJson o :=
  .record rfl .text rfl

theorem distinctKeys_toJson (o : SelectOption) : o.toJson.DistinctKeys := by
  simp [SelectOption.toJson, Json.distinctKeys_obj_iff, Members.keys, DistinctKeys.str]

theorem legible_toJson (o : SelectOption) : Json.Reader.Legible 1 o.toJson := by
  refine .obj (by decide) ?_
  simp [Json.Reader.Legible.str]

theorem selectOptions_toJson (options : List SelectOption) :
    selectOptions (Source.ofJson (.arr (options.map SelectOption.toJson))) = .ok options := by
  have hkeys : ∀ j ∈ options.map SelectOption.toJson, j.DistinctKeys :=
    List.forall_mem_map.2 fun o _ => distinctKeys_toJson o
  rw [selectOptions_ofJson_eq_ok_iff hkeys, List.forall₂_map_left_iff, List.forall₂_same]
  intro o _
  exact writesOption_toJson o

theorem ofText_toJson (options : List SelectOption) :
    ofText (fun _ => selectOptions) (Json.arr (options.map SelectOption.toJson)).text =
      .ok options := by
  have hlegible : Json.Reader.Legible 0 (.arr (options.map SelectOption.toJson)) :=
    .arr (by decide) (List.forall_mem_map.2 fun o _ => legible_toJson o)
  rw [ofText, Source.ofText_text hlegible]
  change (selectOptions _ >>= _) = _
  rw [selectOptions_toJson]
  rfl

/-- **Option lists are read exactly, and read back.** From any source, a list of options is read
exactly if it is an array whose items, each taken as a whole, write the options one by one. In
memory the items write them themselves, and there is a list exactly if every item writes an option.
An encoded list is read back, as a value and as a text, whatever its identifiers look like. -/
theorem option_lists_exact :
    (∀ (s : Source) (options : List SelectOption), selectOptions s = .ok options ↔
      ∃ items, s = .arr items ∧
        List.Forall₂ (fun s o => ∃ j, s.whole? = some j ∧ WritesOption j o) items options) ∧
    (∀ items : List Json, (∀ j ∈ items, j.DistinctKeys) →
      (∀ options, ofJson (fun _ => selectOptions) (.arr items) = .ok options ↔
        List.Forall₂ WritesOption items options) ∧
      ((∃ options, ofJson (fun _ => selectOptions) (.arr items) = .ok options) ↔
        ∀ j ∈ items, ∃ o, WritesOption j o)) ∧
    ∀ options : List SelectOption,
      ofJson (fun _ => selectOptions) (.arr (options.map SelectOption.toJson)) = .ok options ∧
      ofText (fun _ => selectOptions) (Json.arr (options.map SelectOption.toJson)).text =
        .ok options := by
  refine ⟨fun s options => selectOptions_eq_ok_iff, ?_, ?_⟩
  · intro items hkeys
    exact ⟨fun options => selectOptions_ofJson_eq_ok_iff hkeys,
      exists_selectOptions_ofJson_iff hkeys⟩
  · intro options
    exact ⟨selectOptions_toJson options, ofText_toJson options⟩

/-- The number 7.5. -/
def sevenAndAHalf : Binary64.Finite := ⟨false, 0x1e000000000000, 1024, by decide⟩

/-- A bare text, an object with a numeric identifier and a further key, an array whose identifier
only looks like a number, and one with a fraction. -/
theorem option_lists_exact_mixed :
    let items : List Json :=
      [.str "iFood", .obj [("name", .str "Centro"), ("open", .bool true), ("id", .int 7)],
        .arr [.str "007", .str "Rappi"], .arr [.float sevenAndAHalf, .str "Loja"]]
    (∀ j ∈ items, j.DistinctKeys) ∧
      ofJson (fun _ => selectOptions) (.arr items) =
        .ok [⟨"iFood", "iFood"⟩, ⟨"7", "Centro"⟩, ⟨"007", "Rappi"⟩, ⟨"7.5", "Loja"⟩] ∧
      ofText (fun _ => selectOptions)
        (Json.arr ([⟨"007", "Rappi"⟩].map SelectOption.toJson)).text = .ok [⟨"007", "Rappi"⟩] := by
  intro items
  have hkeys : ∀ j ∈ items, j.DistinctKeys := by
    simp [items, Json.distinctKeys_arr_iff, Json.distinctKeys_obj_iff, Members.keys, DistinctKeys.str,
      DistinctKeys.bool, DistinctKeys.int, DistinctKeys.float]
  have hint : (Json.int 7).text = "7" := by rfl
  have hfloat : (Json.float sevenAndAHalf).text = "7.5" := by decide +kernel
  refine ⟨hkeys, ?_, (option_lists_exact.2.2 _).2⟩
  apply ((option_lists_exact.2.1 items hkeys).1 _).2
  exact .cons .text (.cons (.record rfl (hint ▸ .int) rfl)
    (.cons (.pair .text) (.cons (.pair (hfloat ▸ .float)) .nil)))

end SalesExplorer.Wire
