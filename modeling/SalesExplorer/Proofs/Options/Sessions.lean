import SalesExplorer.Proofs.Options.SharedFetch
import SalesExplorer.Rehearsal.Options

/-!
# Histories of value editors

The editor of a clause may be asked for as of now or waited for. To the option cache both are the
same: a look-up if the clause takes a list (`TakesList`), and nothing otherwise. So what happens to
the editors is a history of the cache (`onCache`).

**Sessions** (`exists_history_run`). Whatever is done in a session, its cache has such a history, in
which editors are asked or waited for only as they were in the session.

**Fetches** (`issued_run`). What reaches the backend in a session was asked for by a clause that takes
a list. A fetch that has settled in the cache is done, so to wait for it drives nothing
(`drive_of_done`).
-/

namespace SalesExplorer

namespace ValueEditor

open SalesExplorer.Filter (Clause)

/-- The clause compares channel, status, store or product with one value. -/
def TakesList (c : Clause) : Prop :=
  (c.field = .channel ∨ c.field = .saleStatus ∨ c.field = .store ∨ c.field = .product) ∧
    (c.operator = .equals ∨ c.operator = .notEquals)

instance (c : Clause) : Decidable (TakesList c) := inferInstanceAs (Decidable (_ ∧ _))

/-- What can happen to the value editors. -/
inductive Event where
  /-- The editor of a clause is asked for as of now. -/
  | editor (clause : Clause)
  /-- The editor of a clause is waited for. -/
  | resolve (clause : Clause)
  | settle (fetch : Nat) (outcome : OptionOutcome)
  | invalidate (field : Dimension)
  | clear

/-- Events with their instants, the earliest first. -/
abbrev History := List (Nat × Event)

/-- An event asks or waits for the editor of a clause. -/
def Event.AsksFor (c : Clause) : Event → Prop
  | .editor asked | .resolve asked => asked = c
  | _ => False

/-- What an event is to the option cache. -/
def Event.onCache? : Event → Option OptionCache.Event
  | .editor c | .resolve c => if TakesList c then some (.lookup c.field) else none
  | .settle fetch outcome => some (.settle fetch outcome)
  | .invalidate field => some (.invalidate field)
  | .clear => some .clear

/-- What a history is to the option cache. -/
def onCache (h : History) : OptionCache.History :=
  h.filterMap fun e => e.2.onCache?.map fun event => (e.1, event)

/-- Nothing but outcomes of fetches. -/
def Settles (h : History) : Prop := ∀ e ∈ h, ∃ fetch outcome, e.2 = .settle fetch outcome

variable {c : Clause} {event : Event} {h k : History} {now : Nat} {field : Dimension}

@[simp] theorem onCache_nil : onCache [] = [] := rfl

@[simp] theorem onCache_append (h k : History) : onCache (h ++ k) = onCache h ++ onCache k :=
  List.filterMap_append

theorem Event.asksFor_editor (c : Clause) : (Event.editor c).AsksFor c := rfl

theorem Event.asksFor_resolve (c : Clause) : (Event.resolve c).AsksFor c := rfl

theorem onCache_cons_of_takesList (hc : TakesList c) (hasks : event.AsksFor c) (now : Nat)
    (h : History) : onCache ((now, event) :: h) = (now, .lookup c.field) :: onCache h := by
  cases event with
  | editor asked | resolve asked =>
    cases hasks
    simp [onCache, Event.onCache?, hc]
  | _ => cases hasks

theorem onCache_cons_of_not_takesList (hc : ¬TakesList c) (hasks : event.AsksFor c) (now : Nat)
    (h : History) : onCache ((now, event) :: h) = onCache h := by
  cases event with
  | editor asked | resolve asked =>
    cases hasks
    simp [onCache, Event.onCache?, hc]
  | _ => cases hasks

theorem local?_eq_none_iff : local? c = none ↔ TakesList c := by
  obtain ⟨field, operator, value⟩ := c
  cases field <;> cases operator <;>
    simp [local?, fixed?, hasRemoteOptions, Filter.Operator.isEquality, TakesList]

theorem exists_local?_of_not_takesList (hc : ¬TakesList c) : ∃ editor, local? c = some editor :=
  Option.ne_none_iff_exists'.1 (mt local?_eq_none_iff.1 hc)

theorem exists_asksFor_of_mem_onCache (hmem : (now, .lookup field) ∈ onCache h) :
    ∃ e ∈ h, ∃ c, e.2.AsksFor c ∧ TakesList c ∧ c.field = field := by
  obtain ⟨⟨instant, event⟩, he, hevent⟩ := List.mem_filterMap.1 hmem
  obtain ⟨looked, hlooked, heq⟩ := Option.map_eq_some_iff.1 hevent
  obtain ⟨-, rfl⟩ := Prod.mk.inj heq
  refine ⟨_, he, ?_⟩
  cases event with
  | editor c | resolve c =>
    simp only [Event.onCache?, Option.ite_none_right_eq_some, Option.some.injEq,
      OptionCache.Event.lookup.injEq] at hlooked
    exact ⟨c, rfl, hlooked⟩
  | _ => cases hlooked

/-! ### Outcomes -/

theorem settles_nil : Settles [] := fun _ he => absurd he List.not_mem_nil

theorem Settles.append (hh : Settles h) (hk : Settles k) : Settles (h ++ k) := by
  intro e he
  rcases List.mem_append.1 he with he | he
  · exact hh e he
  · exact hk e he

theorem Settles.not_asksFor (hh : Settles h) {e : Nat × Event} (he : e ∈ h) (c : Clause) :
    ¬e.2.AsksFor c := by
  obtain ⟨fetch, outcome, hsettle⟩ := hh e he
  rw [hsettle]
  exact id

theorem Settles.drops_onCache (hh : Settles h) {e : Nat × OptionCache.Event} (he : e ∈ onCache h)
    (field : Dimension) : e.2.drops field = false := by
  obtain ⟨⟨now, event⟩, hmem, hevent⟩ := List.mem_filterMap.1 he
  obtain ⟨fetch, outcome, rfl⟩ := hh _ hmem
  cases hevent
  rfl

end ValueEditor

/-! ## Sessions -/

namespace Rehearsal.OptionSession

open ValueEditor
open SalesExplorer.Filter (Clause)

/-- What can be done in a session. -/
inductive Act where
  | editor (clause : Clause)
  | resolve (clause : Clause)
  | respond (which : Pick) (outcome : OptionOutcome)
  /-- Background work. -/
  | advance
  | invalidate (field : Dimension)
  | clear
  /-- Nothing, for some time. -/
  | pause (time : Nat)

/-- An act asks or waits for the editor of a clause. -/
def Act.AsksFor (c : Clause) : Act → Prop
  | .editor asked | .resolve asked => asked = c
  | _ => False

def act (s : OptionSession) : Act → OptionSession
  | .editor c => (s.editor c).2
  | .resolve c => (s.resolve c).2
  | .respond which outcome => (s.respond which outcome).2
  | .advance => s.advance
  | .invalidate field => s.invalidate field
  | .clear => s.clear
  | .pause time => { s with clock := s.clock + time }

def run (s : OptionSession) (acts : List Act) : OptionSession := acts.foldl act s

variable {s : OptionSession} {c : Clause} {editor : ValueEditor}

@[simp] theorem run_cons (s : OptionSession) (a : Act) (acts : List Act) :
    s.run (a :: acts) = (s.act a).run acts := rfl

theorem withCache_self (s : OptionSession) : s.withCache s.cache = s.tick := by
  simp [withCache, tick]

theorem editor_of_local? (h : local? c = some editor) : s.editor c = (editor, s.tick) := by
  simp only [OptionSession.editor, ofClause, h, withCache_self]

theorem editor_of_takesList (hc : TakesList c) : s.editor c =
    (ofStatus c (s.cache.lookup s.clock c.field).1.status,
      s.withCache (s.cache.lookup s.clock c.field).2) := by
  simp only [OptionSession.editor, ofClause, local?_eq_none_iff.2 hc]

theorem resolve_of_local? (h : local? c = some editor) : s.resolve c = (some editor, s) := by
  simp only [resolve, h]

/-- One who waits for a list looks it up and drives its fetch. -/
theorem snd_resolve_of_takesList (hc : TakesList c) : (s.resolve c).2 =
    (s.withCache (s.cache.lookup s.clock c.field).2).drive
      (s.cache.lookup s.clock c.field).1.fetch.id := by
  simp only [resolve, local?_eq_none_iff.2 hc]
  rfl

/-! ### The history of the cache -/

/-- Driving a fetch may bring its outcome to the cache, and no more. -/
theorem cache_drive (s : OptionSession) (id : Nat) : (s.drive id).cache = s.cache ∨
    ∃ outcome, (s.drive id).cache = s.cache.settle s.clock id outcome := by
  unfold drive
  cases s.fetches.find? (·.1.id == id) with
  | none => exact .inl rfl
  | some f =>
    obtain ⟨fetch, phase⟩ := f
    cases phase with
    | created =>
      simp only
      cases s.backend.arrive.2.1 with
      | none => exact .inl rfl
      | some outcome => exact .inr ⟨outcome, rfl⟩
    | waiting number => exact .inl rfl
    | replied outcome => exact .inr ⟨outcome, rfl⟩
    | done => exact .inl rfl

theorem exists_settles_drive (s : OptionSession) (id : Nat) :
    ∃ later, Settles later ∧ (s.drive id).cache = s.cache.after (onCache later) := by
  rcases cache_drive s id with hsame | ⟨outcome, hsettle⟩
  · exact ⟨[], settles_nil, hsame⟩
  · exact ⟨[(s.clock, .settle id outcome)], by simp [Settles], hsettle⟩

theorem exists_settles_drives (s : OptionSession) (ids : List Nat) :
    ∃ later, Settles later ∧ (ids.foldl drive s).cache = s.cache.after (onCache later) := by
  induction ids generalizing s with
  | nil => exact ⟨[], settles_nil, rfl⟩
  | cons id ids ih =>
    obtain ⟨first, hfirst, hdrive⟩ := exists_settles_drive s id
    obtain ⟨rest, hrest, hdrives⟩ := ih (s.drive id)
    refine ⟨first ++ rest, hfirst.append hrest, ?_⟩
    rw [List.foldl_cons, hdrives, hdrive, onCache_append, OptionCache.after_append]

/-- To ask for an editor is a look-up, if the clause takes a list. -/
theorem cache_editor (s : OptionSession) (c : Clause) :
    (s.editor c).2.cache = s.cache.after (onCache [(s.clock, .editor c)]) := by
  by_cases hc : TakesList c
  · rw [editor_of_takesList hc, onCache_cons_of_takesList hc (Event.asksFor_editor c)]
    rfl
  · obtain ⟨editor, hlocal⟩ := exists_local?_of_not_takesList hc
    rw [editor_of_local? hlocal, onCache_cons_of_not_takesList hc (Event.asksFor_editor c)]
    rfl

/-- To wait for one is the same, and may bring the outcome of a fetch. -/
theorem exists_settles_resolve (s : OptionSession) (c : Clause) : ∃ later, Settles later ∧
    (s.resolve c).2.cache = s.cache.after (onCache ((s.clock, .resolve c) :: later)) := by
  by_cases hc : TakesList c
  · obtain ⟨later, hlater, hdrive⟩ := exists_settles_drive
      (s.withCache (s.cache.lookup s.clock c.field).2) (s.cache.lookup s.clock c.field).1.fetch.id
    refine ⟨later, hlater, ?_⟩
    rw [snd_resolve_of_takesList hc, hdrive, onCache_cons_of_takesList hc (Event.asksFor_resolve c)]
    rfl
  · obtain ⟨editor, hlocal⟩ := exists_local?_of_not_takesList hc
    refine ⟨[], settles_nil, ?_⟩
    rw [resolve_of_local? hlocal, onCache_cons_of_not_takesList hc (Event.asksFor_resolve c)]
    rfl

theorem cache_respond (s : OptionSession) (which : Pick) (outcome : OptionOutcome) :
    (s.respond which outcome).2.cache = s.cache := by
  unfold respond
  split <;> rfl

/-- An act is a history of the cache that asks for what the act asks for. -/
theorem exists_history_act (s : OptionSession) (a : Act) : ∃ h : ValueEditor.History,
    (∀ e ∈ h, ∀ c, e.2.AsksFor c → a.AsksFor c) ∧ (s.act a).cache = s.cache.after (onCache h) := by
  cases a with
  | editor c => exact ⟨_, by simp [ValueEditor.Event.AsksFor, Act.AsksFor], cache_editor s c⟩
  | resolve c =>
    obtain ⟨later, hlater, hcache⟩ := exists_settles_resolve s c
    refine ⟨_, fun e he c' hasks => ?_, hcache⟩
    rcases List.mem_cons.1 he with rfl | he
    · exact hasks
    · exact absurd hasks (hlater.not_asksFor he c')
  | respond which outcome => exact ⟨[], by simp, cache_respond s which outcome⟩
  | advance =>
    cases hbackground : s.background with
    | true =>
      obtain ⟨later, hlater, hcache⟩ := exists_settles_drives s (s.fetches.map (·.1.id))
      refine ⟨later, fun e he c hasks => absurd hasks (hlater.not_asksFor he c), ?_⟩
      rw [act, advance, if_pos hbackground, hcache]
    | false =>
      refine ⟨[], by simp, ?_⟩
      rw [act, advance, hbackground]
      rfl
  | invalidate field =>
    exact ⟨[(s.clock, .invalidate field)], by simp [ValueEditor.Event.AsksFor], rfl⟩
  | clear => exact ⟨[(s.clock, .clear)], by simp [ValueEditor.Event.AsksFor], rfl⟩
  | pause time => exact ⟨[], by simp, rfl⟩

/-- **Whatever is done in a session is a history of its cache.** -/
theorem exists_history_run (s : OptionSession) (acts : List Act) : ∃ h : ValueEditor.History,
    (∀ e ∈ h, ∀ c, e.2.AsksFor c → ∃ a ∈ acts, a.AsksFor c) ∧
      (s.run acts).cache = s.cache.after (onCache h) := by
  induction acts generalizing s with
  | nil => exact ⟨[], by simp, rfl⟩
  | cons a acts ih =>
    obtain ⟨first, hfirst, hact⟩ := exists_history_act s a
    obtain ⟨rest, hrest, hrun⟩ := ih (s.act a)
    refine ⟨first ++ rest, fun e he c hasks => ?_, ?_⟩
    · rcases List.mem_append.1 he with he | he
      · exact ⟨a, List.mem_cons_self, hfirst e he c hasks⟩
      · obtain ⟨a', ha', hasks'⟩ := hrest e he c hasks
        exact ⟨a', List.mem_cons_of_mem a ha', hasks'⟩
    · rw [run_cons, hrun, hact, onCache_append, OptionCache.after_append]

/-! ### Fetches -/

/-- Every fetch so far, and every one that has reached the backend, is for such a dimension. A fetch
is done once its outcome is in the cache. -/
structure Issued (P : Dimension → Prop) (s : OptionSession) : Prop where
  fetches : ∀ f ∈ s.fetches, P f.1.field
  begun : ∀ field ∈ s.begun, P field
  done : ∀ e ∈ s.cache.entries, e.settled.isSome = true →
    ∀ f ∈ s.fetches, f.1.id = e.fetch.id → f.2 = .done

variable {P : Dimension → Prop}

theorem drive_of_done {id : Nat} (h : ∀ f ∈ s.fetches, f.1.id = id → f.2 = .done) :
    s.drive id = s := by
  unfold drive
  cases hfind : s.fetches.find? (·.1.id == id) with
  | none => rfl
  | some f =>
    have hdone := h f (List.mem_of_find?_eq_some hfind) (by simpa using List.find?_some hfind)
    obtain ⟨fetch, phase⟩ := f
    cases hdone
    rfl

theorem Issued.field_of_mem_setPhase (hs : Issued P s) (id : Nat) (phase : FetchPhase) :
    ∀ f ∈ (s.setPhase id phase).fetches, P f.1.field := by
  intro f hf
  obtain ⟨⟨fetch, old⟩, hmem, rfl⟩ := List.mem_map.1 hf
  have hfield := hs.fetches _ hmem
  by_cases hid : fetch.id = id
  · simpa [hid] using hfield
  · simpa [hid] using hfield

/-- A fetch without an outcome in the cache may be in any phase. -/
theorem Issued.setPhase (hs : Issued P s) {id : Nat} (phase : FetchPhase)
    (hopen : ∀ e ∈ s.cache.entries, e.settled.isSome = true → e.fetch.id ≠ id) :
    Issued P (s.setPhase id phase) := by
  refine ⟨hs.field_of_mem_setPhase id phase, hs.begun, fun e he hsettled f hf hid => ?_⟩
  obtain ⟨⟨fetch, old⟩, hmem, rfl⟩ := List.mem_map.1 hf
  by_cases hfetch : fetch.id = id
  · simp only [hfetch, if_true] at hid
    exact absurd hid.symm (hopen e he hsettled)
  · simp only [if_neg hfetch] at hid ⊢
    exact hs.done e he hsettled _ hmem hid

theorem Issued.settle (hs : Issued P s) (id : Nat) (outcome : OptionOutcome) :
    Issued P (s.settle id outcome) := by
  refine ⟨hs.field_of_mem_setPhase id .done, hs.begun,
    fun e he hsettled f hf hid => ?_⟩
  obtain ⟨e, hentry, rfl⟩ := List.mem_map.1 he
  obtain ⟨⟨fetch, old⟩, hmem, rfl⟩ := List.mem_map.1 hf
  by_cases hfetch : fetch.id = id
  · simp [hfetch]
  · have hother : e.fetch.id = fetch.id := by
      simp only [if_neg hfetch] at hid
      rw [hid]
      split_ifs <;> rfl
    have hkept : ¬(e.fetch.id = id ∧ e.settled.isNone = true) :=
      fun h => hfetch (hother.symm.trans h.1)
    simp only [if_neg hfetch, if_neg hkept] at hsettled ⊢
    exact hs.done e hentry hsettled _ hmem hother.symm

theorem Issued.drive (hs : Issued P s) (id : Nat) : Issued P (s.drive id) := by
  unfold OptionSession.drive
  cases hfind : s.fetches.find? (·.1.id == id) with
  | none => exact hs
  | some f =>
    obtain ⟨fetch, phase⟩ := f
    have hmem := List.mem_of_find?_eq_some hfind
    have hid : fetch.id = id := by simpa using List.find?_some hfind
    cases phase with
    | created =>
      have hopen : ∀ e ∈ s.cache.entries, e.settled.isSome = true → e.fetch.id ≠ id := by
        intro e he hsettled heq
        have hdone := hs.done e he hsettled _ hmem (hid.trans heq.symm)
        cases hdone
      have hbegun : ∀ field ∈ s.begun ++ [fetch.field], P field := by
        intro field hfield
        rcases List.mem_append.1 hfield with hfield | hfield
        · exact hs.begun field hfield
        · rw [List.mem_singleton.1 hfield]
          exact hs.fetches _ hmem
      have hnext : Issued P
          { s with backend := s.backend.arrive.2.2, begun := s.begun ++ [fetch.field] } :=
        ⟨hs.fetches, hbegun, hs.done⟩
      simp only
      cases s.backend.arrive.2.1 with
      | none => exact hnext.setPhase _ hopen
      | some outcome => exact hnext.settle id outcome
    | waiting number => exact hs
    | replied outcome => exact hs.settle id outcome
    | done => exact hs

theorem Issued.drives (hs : Issued P s) (ids : List Nat) :
    Issued P (ids.foldl OptionSession.drive s) := by
  induction ids generalizing s with
  | nil => exact hs
  | cons id ids ih => exact ih (hs.drive id)

theorem Issued.respond (hs : Issued P s) (which : Pick) (outcome : OptionOutcome) :
    Issued P (s.respond which outcome).2 := by
  unfold OptionSession.respond
  split
  · exact hs
  · rename_i n _
    refine ⟨fun f hf => ?_, hs.begun, fun e he hsettled f hf hid => ?_⟩
    · obtain ⟨⟨fetch, phase⟩, hmem, rfl⟩ := List.mem_map.1 hf
      have hfield := hs.fetches _ hmem
      cases phase with
      | waiting m => by_cases hm : m = n <;> simpa [hm] using hfield
      | _ => exact hfield
    · obtain ⟨⟨fetch, phase⟩, hmem, rfl⟩ := List.mem_map.1 hf
      have hdone := hs.done e he hsettled _ hmem
      cases phase with
      | waiting m => by_cases hm : m = n <;> simp [hm] at hid <;> cases hdone hid
      | _ => exact hdone hid

/-- A look-up starts no fetch but one for its own dimension. -/
theorem Issued.lookup (hs : Issued P s) (hids : ∀ e ∈ s.cache.entries, e.fetch.id < s.cache.started)
    {field : Dimension} (hfield : P field) (now : Nat) :
    Issued P (s.withCache (s.cache.lookup now field).2) := by
  have hfetches : ∀ f ∈ (s.withCache (s.cache.lookup now field).2).fetches,
      f ∈ s.fetches ∨ f.1 = ⟨s.cache.started, field⟩ := by
    intro f hf
    simp only [withCache] at hf
    split_ifs at hf
    · rcases List.mem_append.1 hf with hf | hf
      · exact .inl hf
      · obtain ⟨e, he, rfl⟩ := List.mem_map.1 hf
        obtain ⟨hmem, hnew⟩ := List.mem_filter.1 he
        rcases OptionCache.mem_lookup hmem with hold | rfl
        · exact absurd (hids e hold) (Nat.not_lt.2 (of_decide_eq_true hnew))
        · exact .inr rfl
    · exact .inl hf
  refine ⟨fun f hf => ?_, hs.begun, fun e he hsettled f hf hid => ?_⟩
  · rcases hfetches f hf with hold | hnew
    · exact hs.fetches f hold
    · rw [hnew]
      exact hfield
  · rcases OptionCache.mem_lookup he with hentry | rfl
    · rcases hfetches f hf with hold | hnew
      · exact hs.done e hentry hsettled f hold hid
      · -- A new fetch has a number of its own.
        rw [hnew] at hid
        exact absurd hid.symm (Nat.ne_of_lt (hids e hentry))
    · cases hsettled

/-- Fetches are started by clauses that take a list. -/
theorem Issued.act (hs : Issued P s) (hids : ∀ e ∈ s.cache.entries, e.fetch.id < s.cache.started)
    {a : Act} (hP : ∀ c, a.AsksFor c → TakesList c → P c.field) : Issued P (s.act a) := by
  cases a with
  | editor c =>
    by_cases hc : TakesList c
    · rw [OptionSession.act, editor_of_takesList hc]
      exact hs.lookup hids (hP c rfl hc) s.clock
    · obtain ⟨editor, hlocal⟩ := exists_local?_of_not_takesList hc
      rw [OptionSession.act, editor_of_local? hlocal]
      exact ⟨hs.fetches, hs.begun, hs.done⟩
  | resolve c =>
    by_cases hc : TakesList c
    · rw [OptionSession.act, snd_resolve_of_takesList hc]
      exact (hs.lookup hids (hP c rfl hc) s.clock).drive _
    · obtain ⟨editor, hlocal⟩ := exists_local?_of_not_takesList hc
      rw [OptionSession.act, resolve_of_local? hlocal]
      exact hs
  | respond which outcome => exact hs.respond which outcome
  | advance =>
    rw [OptionSession.act, advance]
    split_ifs
    · exact hs.drives _
    · exact hs
  | invalidate field =>
    exact ⟨hs.fetches, hs.begun, fun e he => hs.done e (List.mem_filter.1 he).1⟩
  | clear => exact ⟨hs.fetches, hs.begun, fun e he => absurd he List.not_mem_nil⟩
  | pause time => exact ⟨hs.fetches, hs.begun, hs.done⟩

/-- **What reaches the backend** in a session was asked for by a clause that takes a list, and what
has settled in the cache is no longer on its way there. -/
theorem issued_run {start : OptionCache} (hstart : start.entries = []) {h : ValueEditor.History}
    (hcache : s.cache = start.after (onCache h)) (hs : Issued P s) {acts : List Act}
    (hP : ∀ a ∈ acts, ∀ c, a.AsksFor c → TakesList c → P c.field) : Issued P (s.run acts) := by
  induction acts generalizing s h with
  | nil => exact hs
  | cons a acts ih =>
    obtain ⟨k, -, hact⟩ := exists_history_act s a
    have hids : ∀ e ∈ s.cache.entries, e.fetch.id < s.cache.started := by
      intro e he
      rw [hcache] at he ⊢
      exact OptionCache.id_lt_of_mem_fetches (OptionCache.entryOf?_of_mem_after hstart he).2
    refine ih (h := h ++ k) ?_ (hs.act hids (hP a List.mem_cons_self))
      fun a' ha' => hP a' (List.mem_cons_of_mem a ha')
    rw [hact, hcache, onCache_append, OptionCache.after_append]

end Rehearsal.OptionSession

end SalesExplorer
