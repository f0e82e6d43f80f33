import Mathlib.Data.List.Nodup
import Mathlib.Tactic.Common
import SalesExplorer.Json.Source
import SalesExplorer.Proofs.Json.Members

/-!
# Values taken as a whole

Whatever a value was taken from, its objects hold each key once (`distinctKeys_of_whole?`). In the
other direction a value with such objects only is taken as it is (`whole?_ofJson`).
-/

namespace SalesExplorer

/-- Every object in the value, at any depth, holds each key once. -/
inductive Json.DistinctKeys : Json → Prop
  | null : DistinctKeys .null
  | bool {b : Bool} : DistinctKeys (.bool b)
  | int {n : Int} : DistinctKeys (.int n)
  | float {x : Binary64.Finite} : DistinctKeys (.float x)
  | str {s : String} : DistinctKeys (.str s)
  | arr {items : List Json} (hitems : ∀ j ∈ items, DistinctKeys j) : DistinctKeys (.arr items)
  | obj {ms : Members} (hkeys : ms.keys.Nodup) (hms : ∀ m ∈ ms, DistinctKeys m.2) :
      DistinctKeys (.obj ms)

theorem Json.distinctKeys_arr_iff {items : List Json} :
    (Json.arr items).DistinctKeys ↔ ∀ j ∈ items, j.DistinctKeys := by
  constructor
  · intro h
    cases h with | arr hitems => exact hitems
  · exact .arr

theorem Json.distinctKeys_obj_iff {ms : Members} :
    (Json.obj ms).DistinctKeys ↔ ms.keys.Nodup ∧ ∀ m ∈ ms, m.2.DistinctKeys := by
  constructor
  · intro h
    cases h with | obj hkeys hms => exact ⟨hkeys, hms⟩
  · intro ⟨hkeys, hms⟩
    exact .obj hkeys hms

namespace Source

open Json (DistinctKeys)

/-! ## From a value -/

theorem wholeItems?_ofItems {items : List Json} (h : ∀ j ∈ items, (ofJson j).whole? = some j) :
    wholeItems? (ofItems items) = some items := by
  induction items with
  | nil => rfl
  | cons j items ih =>
    obtain ⟨hj, hitems⟩ := List.forall_mem_cons.1 h
    rw [ofItems, wholeItems?, hj, ih hitems]
    rfl

theorem wholeMembers?_ofMembers {columns : Members}
    (h : ∀ m ∈ columns, (ofJson m.2).whole? = some m.2) (ms : Members) :
    wholeMembers? (ofMembers columns) ms = some (ms.setAll columns) := by
  induction columns generalizing ms with
  | nil => rfl
  | cons c columns ih =>
    obtain ⟨k, v⟩ := c
    obtain ⟨hv, hcolumns⟩ := List.forall_mem_cons.1 h
    rw [ofMembers, wholeMembers?, hv]
    exact ih hcolumns (ms.set k v)

/-- **A value without repeated keys** is taken as it is. -/
theorem whole?_ofJson {j : Json} (h : j.DistinctKeys) : (ofJson j).whole? = some j := by
  induction h with
  | arr _ ih => rw [ofJson, whole?, wholeItems?_ofItems ih, Option.map_some]
  | obj hkeys _ ih =>
    rw [ofJson, whole?, wholeMembers?_ofMembers ih, Members.setAll_of_nodup (by simpa using hkeys)]
    rfl
  | _ => rfl

/-! ## From any source -/

mutual

/-- **What is taken as a whole** has no repeated keys. -/
theorem distinctKeys_of_whole? : ∀ {s : Source} {j : Json}, s.whole? = some j → j.DistinctKeys
  | null, _, h => by cases h; exact .null
  | bool _, _, h => by cases h; exact .bool
  | int _, _, h => by cases h; exact .int
  | float _, _, h => by cases h; exact .float
  | str _, _, h => by cases h; exact .str
  | unreadable, _, h => by cases h
  | arr items, _, h => by
    obtain ⟨js, hjs, rfl⟩ := Option.map_eq_some_iff.1 h
    exact .arr (distinctKeys_of_wholeItems? hjs)
  | obj members, _, h => by
    obtain ⟨ms, hms, rfl⟩ := Option.map_eq_some_iff.1 h
    obtain ⟨hkeys, hvalues⟩ :=
      distinctKeys_of_wholeMembers? hms List.nodup_nil (List.forall_mem_nil _)
    exact .obj hkeys hvalues

theorem distinctKeys_of_wholeItems? : ∀ {items : List Source} {js : List Json},
    wholeItems? items = some js → ∀ j ∈ js, j.DistinctKeys
  | [], _, h => by
    cases h
    exact List.forall_mem_nil _
  | s :: items, _, h => by
    obtain ⟨j, hj, h⟩ := Option.bind_eq_some_iff.1 h
    obtain ⟨js, hjs, h⟩ := Option.bind_eq_some_iff.1 h
    cases h
    exact List.forall_mem_cons.2 ⟨distinctKeys_of_whole? hj, distinctKeys_of_wholeItems? hjs⟩

theorem distinctKeys_of_wholeMembers? : ∀ {members : List (Option String × Source)}
    {ms ms' : Members}, wholeMembers? members ms = some ms' → ms.keys.Nodup →
    (∀ m ∈ ms, m.2.DistinctKeys) → ms'.keys.Nodup ∧ ∀ m ∈ ms', m.2.DistinctKeys
  | [], _, _, h, hkeys, hms => by
    cases h
    exact ⟨hkeys, hms⟩
  | (none, _) :: _, _, _, h, _, _ => by cases h
  | (some k, s) :: members, ms, _, h, hkeys, hms => by
    obtain ⟨j, hj, h⟩ := Option.bind_eq_some_iff.1 h
    apply distinctKeys_of_wholeMembers? h (Members.nodup_keys_set hkeys k j)
    intro m hm
    rcases Members.mem_set hm with rfl | hm
    · exact distinctKeys_of_whole? hj
    · exact hms m hm

end

end Source

end SalesExplorer
