import SalesExplorer.Proofs.Options.Sessions

/-!
# Value editors and the lists they take

**Theorem (`editors_agree`).** Whether an editor is asked for as of now or waited for, a list is
fetched only for a clause that compares channel, status, store or product with one value; every other
clause has the same editor both ways and leaves all as it was. A clause that takes a list has the
disabled editor while the fetch of the list is on its way. Once that has settled, and until its
window has passed, both ways give the same editor and start no fetch: the list if it was fetched,
plain text if not.

The fetch that a clause depends on is the current one of its dimension in the history of the cache
(`OptionCache.Current`), and the entry that is looked up is that fetch with what has become of it.
One who waits drives the fetch as well. That can only settle it, which changes nothing where it has
settled before (`OptionCache.settle_of_settled`); in a session that began with an empty cache, such
a fetch is done (`editor_and_resolve_of_settled`). In general both ways show what has become of the
list by then, one after the look-up and the other after an outcome to which the fetch may be driven
(`editor_stands`, `resolve_stands`).
-/

namespace SalesExplorer

namespace ValueEditor

open SalesExplorer.Filter (Clause)

/-- The editor of a clause whose list came to an outcome. -/
def ofOutcome : OptionOutcome → ValueEditor
  | .ok options => remote (some options)
  | .error _ => freeText false

/-- After a history, the cache is as given, and so is what has become of the list of a dimension. -/
def ListStands (start : OptionCache) (h : History) (field : Dimension) (cache : OptionCache)
    (outcome? : Option OptionOutcome) : Prop :=
  cache = start.after (onCache h) ∧ ∃ fetch since,
    OptionCache.Current start (onCache h) fetch since ∧ fetch.field = field ∧
      outcome? = (OptionCache.firstOutcome? fetch.id since).map Prod.fst

variable {c : Clause} {entry : OptionCache.Entry}

theorem plain_of_takesList (hc : TakesList c) : plain c.operator = freeText false := by
  rcases hc.2 with h | h <;> rw [h] <;> rfl

theorem ofStatus_of_pending (h : entry.settled = none) : ofStatus c entry.status = remote none := by
  rw [OptionCache.Entry.status, h]
  rfl

theorem ofStatus_of_settled (hc : TakesList c) {outcome : OptionOutcome} {settledAt : Nat}
    (h : entry.settled = some (outcome, settledAt)) :
    ofStatus c entry.status = ofOutcome outcome := by
  rw [OptionCache.Entry.status, h]
  cases outcome with
  | ok options => rfl
  | error fault => exact plain_of_takesList hc

/-- What one who waits for a list gets from its entry. -/
theorem awaited_eq (hc : TakesList c) (found : Option OptionCache.Entry) :
    (match (found.map (·.status)).getD .loading with
      | .loading => none
      | status => some (ofStatus c status)) =
      found.bind fun entry => entry.settled.map fun settled => ofOutcome settled.1 := by
  cases found with
  | none => rfl
  | some entry =>
    obtain ⟨fetch, settled⟩ := entry
    rcases settled with - | ⟨fault | options, settledAt⟩
    · rfl
    · exact congrArg some (plain_of_takesList hc)
    · rfl

end ValueEditor

namespace Rehearsal.OptionSession

open ValueEditor
open SalesExplorer.Filter (Clause)

variable {s : OptionSession} {c : Clause} {start : OptionCache} {h : ValueEditor.History}
  {fetch : OptionFetch} {since : OptionCache.History}

theorem resolve_of_takesList (hc : TakesList c) : (s.resolve c).1 =
    ((s.resolve c).2.cache.entryOf? c.field).bind fun entry =>
      entry.settled.map fun settled => ofOutcome settled.1 := by
  rw [← awaited_eq hc]
  simp only [resolve, local?_eq_none_iff.2 hc]
  rfl

/-! ## The list is on its way or at hand -/

/-- Until the window has passed, asking changes nothing. -/
theorem editor_of_current (hc : TakesList c) (hstart : start.entries = [])
    (hs : s.cache = start.after (onCache h))
    (hcur : OptionCache.Current start (onCache h) fetch since) (hfield : fetch.field = c.field)
    (hwindow : ∀ outcome settledAt, OptionCache.firstOutcome? fetch.id since =
      some (outcome, settledAt) → s.clock - settledAt < start.window outcome) :
    s.editor c =
      (ofStatus c (OptionCache.Entry.status ⟨fetch, OptionCache.firstOutcome? fetch.id since⟩),
        s.tick) := by
  have hlookup := OptionCache.lookup_of_current hstart hcur s.clock hwindow
  rw [editor_of_takesList hc, ← hfield, hs, hlookup, ← hs, withCache_self]

/-- Once the fetch has settled, waiting changes nothing either. -/
theorem resolve_of_settled (hc : TakesList c) (hstart : start.entries = [])
    (hs : s.cache = start.after (onCache h))
    (hcur : OptionCache.Current start (onCache h) fetch since) (hfield : fetch.field = c.field)
    {outcome : OptionOutcome} {settledAt : Nat}
    (hsettled : OptionCache.firstOutcome? fetch.id since = some (outcome, settledAt))
    (hwindow : s.clock - settledAt < start.window outcome) :
    (s.resolve c).1 = some (ofOutcome outcome) ∧ (s.resolve c).2.cache = s.cache := by
  have hentry : s.cache.entryOf? c.field = some ⟨fetch, some (outcome, settledAt)⟩ := by
    rw [hs]
    exact (OptionCache.entryOf?_after_iff hstart).2 ⟨since, hcur, hfield, hsettled.symm⟩
  have hlookup := OptionCache.lookup_of_current hstart hcur s.clock (by
    rw [hsettled]
    rintro _ _ ⟨⟩
    exact hwindow)
  rw [hsettled, hfield, ← hs] at hlookup
  have hcache : (s.resolve c).2.cache = s.cache := by
    rw [snd_resolve_of_takesList hc, hlookup, withCache_self]
    rcases cache_drive s.tick fetch.id with hsame | ⟨again, hagain⟩
    · exact hsame
    · rw [hagain]
      show s.cache.settle _ _ _ = s.cache
      rw [hs] at hentry ⊢
      exact OptionCache.settle_of_settled hstart hentry rfl _ _
  exact ⟨by rw [resolve_of_takesList hc, hcache, hentry]; rfl, hcache⟩

/-! ## The list is in the cache -/

/-- Where a settled fetch is done, the list is at hand both ways, and no fetch goes on for it. -/
theorem editor_and_resolve_of_settled {P : Dimension → Prop} (hc : TakesList c) (hs : Issued P s)
    {outcome : OptionOutcome} {settledAt : Nat}
    (hentry : s.cache.entryOf? c.field = some ⟨fetch, some (outcome, settledAt)⟩)
    (hwindow : s.clock - settledAt < s.cache.window outcome) :
    s.editor c = (ofOutcome outcome, s.tick) ∧ s.resolve c = (some (ofOutcome outcome), s.tick) := by
  have hlookup : s.cache.lookup s.clock c.field = (⟨fetch, some (outcome, settledAt)⟩, s.cache) := by
    refine OptionCache.lookup_of_live hentry (OptionCache.isStale_eq_false_iff.2 ?_)
    rintro _ _ ⟨⟩
    exact hwindow
  constructor
  · rw [editor_of_takesList hc, hlookup, withCache_self, ofStatus_of_settled hc rfl]
  · have hnext : (s.resolve c).2 = s.tick := by
      rw [snd_resolve_of_takesList hc, hlookup, withCache_self]
      exact drive_of_done (hs.done _ (List.mem_of_find?_eq_some hentry) rfl)
    have hgiven : (s.resolve c).1 = some (ofOutcome outcome) := by
      rw [resolve_of_takesList hc, hnext, tick, hentry]
      rfl
    exact Prod.ext hgiven hnext

/-! ## What has become of the list -/

theorem editor_stands (hc : TakesList c) (hstart : start.entries = [])
    (hs : s.cache = start.after (onCache h)) : ∃ outcome?,
      ListStands start (h ++ [(s.clock, .editor c)]) c.field (s.editor c).2.cache outcome? ∧
      (s.editor c).1 = (outcome?.map ofOutcome).getD (remote none) := by
  obtain ⟨fetch, since, hcur, hfield, hgot⟩ :=
    OptionCache.lookup_after (h := onCache h) hstart s.clock c.field
  rw [← onCache_nil, ← onCache_cons_of_takesList hc (Event.asksFor_editor c), ← onCache_append]
    at hcur
  refine ⟨_, ⟨?_, fetch, since, hcur, hfield, rfl⟩, ?_⟩
  · rw [cache_editor, hs, onCache_append, OptionCache.after_append]
  · rw [editor_of_takesList hc, hs, hgot]
    cases hsettled : OptionCache.firstOutcome? fetch.id since with
    | none => rfl
    | some settled =>
      obtain ⟨outcome, settledAt⟩ := settled
      exact ofStatus_of_settled hc rfl

theorem resolve_stands (hc : TakesList c) (hstart : start.entries = [])
    (hs : s.cache = start.after (onCache h)) : ∃ later outcome?, Settles later ∧
      ListStands start (h ++ (s.clock, .resolve c) :: later) c.field (s.resolve c).2.cache outcome? ∧
      (s.resolve c).1 = outcome?.map ofOutcome := by
  obtain ⟨later, hlater, hcache⟩ := exists_settles_resolve s c
  -- The entry that was looked up is still there.
  have hfound : ((s.resolve c).2.cache.entryOf? c.field).isSome = true := by
    rw [hcache, onCache_cons_of_takesList hc (Event.asksFor_resolve c), OptionCache.after_cons]
    apply OptionCache.isSome_entryOf?_after fun e he => hlater.drops_onCache he c.field
    rw [OptionCache.step, OptionCache.entryOf?_lookup]
    rfl
  obtain ⟨entry, hentry⟩ := Option.isSome_iff_exists.1 hfound
  have hgiven : (s.resolve c).1 = (entry.settled.map Prod.fst).map ofOutcome := by
    rw [resolve_of_takesList hc, hentry, Option.bind_some, Option.map_map]
    rfl
  rw [hs, ← OptionCache.after_append, ← onCache_append] at hcache
  rw [hcache] at hentry
  obtain ⟨since, hcur, hfield, hsettled⟩ := (OptionCache.entryOf?_after_iff hstart).1 hentry
  exact ⟨later, _, hlater, ⟨hcache, entry.fetch, since, hcur, hfield, by rw [hsettled]⟩, hgiven⟩

/-! ## Both ways -/

/-- A session fetches the lists of the clauses that take one, and once a list has arrived its
editor is the same both ways. -/
structure AgreesInSession (start : OptionCache) (acts : List Act) (s : OptionSession) : Prop where
  fetched : ∀ field ∈ s.begun, ∃ a ∈ acts, ∃ c, a.AsksFor c ∧ TakesList c ∧ c.field = field
  settled : ∀ c fetch outcome settledAt, TakesList c →
    s.cache.entryOf? c.field = some ⟨fetch, some (outcome, settledAt)⟩ →
    s.clock - settledAt < start.window outcome →
    s.editor c = (ofOutcome outcome, s.tick) ∧ s.resolve c = (some (ofOutcome outcome), s.tick)
  history : ∃ h, s.cache = start.after (onCache h) ∧
    ∀ e ∈ h, ∀ c, e.2.AsksFor c → ∃ a ∈ acts, a.AsksFor c

/-- The editor of a clause that is asked for now and the one that is waited for, after a history of
the cache. -/
structure AgreesOn (start : OptionCache) (h : ValueEditor.History) (s : OptionSession)
    (c : Clause) : Prop where
  fixed : ¬TakesList c → ∃ editor, s.editor c = (editor, s.tick) ∧ s.resolve c = (some editor, s)
  pending : TakesList c → ∀ fetch since, OptionCache.Current start (onCache h) fetch since →
    fetch.field = c.field → OptionCache.firstOutcome? fetch.id since = none →
    s.editor c = (remote none, s.tick) ∧ (s.editor c).1.isDisabled = true
  settled : TakesList c → ∀ fetch since, OptionCache.Current start (onCache h) fetch since →
    fetch.field = c.field → ∀ outcome settledAt,
    OptionCache.firstOutcome? fetch.id since = some (outcome, settledAt) →
    s.clock - settledAt < start.window outcome →
    s.editor c = (ofOutcome outcome, s.tick) ∧
      (s.resolve c).1 = some (ofOutcome outcome) ∧ (s.resolve c).2.cache = s.cache
  asked : TakesList c → ∃ outcome?,
    ListStands start (h ++ [(s.clock, .editor c)]) c.field (s.editor c).2.cache outcome? ∧
    (s.editor c).1 = (outcome?.map ofOutcome).getD (remote none)
  awaited : TakesList c → ∃ later outcome?, Settles later ∧
    ListStands start (h ++ (s.clock, .resolve c) :: later) c.field (s.resolve c).2.cache outcome? ∧
    (s.resolve c).1 = outcome?.map ofOutcome

theorem agreesInSession_run (hstart : start.entries = []) (backend : Backend OptionOutcome)
    (background : Bool) (acts : List Act) :
    AgreesInSession start acts
      (({ cache := start, backend, background } : OptionSession).run acts) := by
  obtain ⟨h, hasks, hcache⟩ := exists_history_run { cache := start, backend, background } acts
  have hnone : Issued (fun field => ∃ a ∈ acts, ∃ c, a.AsksFor c ∧ TakesList c ∧ c.field = field)
      { cache := start, backend, background } :=
    ⟨fun _ hf => absurd hf List.not_mem_nil, fun _ hfield => absurd hfield List.not_mem_nil,
      fun e he => absurd (hstart ▸ he : e ∈ []) List.not_mem_nil⟩
  have hissued := issued_run hstart (h := []) rfl hnone
    fun a ha c hasks hc => ⟨a, ha, c, hasks, hc, rfl⟩
  refine ⟨hissued.begun, fun c fetch outcome settledAt hc hentry hwindow => ?_, h, hcache, hasks⟩
  refine editor_and_resolve_of_settled hc hissued hentry ?_
  rw [hcache, OptionCache.window_after]
  exact hwindow

theorem agreesOn_of_cache_eq (hstart : start.entries = []) (hs : s.cache = start.after (onCache h))
    (c : Clause) : AgreesOn start h s c where
  fixed hc := by
    obtain ⟨editor, hlocal⟩ := exists_local?_of_not_takesList hc
    exact ⟨editor, editor_of_local? hlocal, resolve_of_local? hlocal⟩
  pending hc fetch since hcur hfield hpending := by
    have heditor := editor_of_current hc hstart hs hcur hfield (by simp [hpending])
    rw [ofStatus_of_pending hpending] at heditor
    exact ⟨heditor, by rw [heditor]; rfl⟩
  settled hc fetch since hcur hfield outcome settledAt hsettled hwindow := by
    have heditor := editor_of_current hc hstart hs hcur hfield (by
      rw [hsettled]
      rintro _ _ ⟨⟩
      exact hwindow)
    rw [ofStatus_of_settled hc hsettled] at heditor
    exact ⟨heditor, resolve_of_settled hc hstart hs hcur hfield hsettled hwindow⟩
  asked hc := editor_stands hc hstart hs
  awaited hc := resolve_stands hc hstart hs

/-- **Editors that are asked for and editors that are waited for agree**, and lists are fetched for
the clauses that take one. -/
theorem editors_agree (listWindow failureWindow : Nat) :
    let start := OptionCache.fresh listWindow failureWindow
    (∀ backend background acts, AgreesInSession start acts
      (({ cache := start, backend, background } : OptionSession).run acts)) ∧
    ∀ h : ValueEditor.History,
      (∀ fetch ∈ OptionCache.fetches start (onCache h),
        ∃ e ∈ h, ∃ c, e.2.AsksFor c ∧ TakesList c ∧ c.field = fetch.field) ∧
      ∀ (s : OptionSession) (c : Clause), s.cache = start.after (onCache h) →
        AgreesOn start h s c := by
  intro start
  have hstart : start.entries = [] := rfl
  refine ⟨fun backend background acts => agreesInSession_run hstart backend background acts,
    fun h => ⟨fun fetch hfetch => ?_, fun s c hs => agreesOn_of_cache_eq hstart hs c⟩⟩
  obtain ⟨now, hmem⟩ := OptionCache.exists_lookup_of_mem_fetches hfetch
  exact exists_asksFor_of_mem_onCache hmem

/-- The list of channels has arrived, that of stores could not be fetched, and that of products is on
its way. In a session, the list of channels is waited for again after it has arrived. -/
theorem editors_agree_three :
    let start := OptionCache.fresh 600 30
    let channel : Clause := ⟨.channel, .equals, .none⟩
    let store : Clause := ⟨.store, .notEquals, .none⟩
    let product : Clause := ⟨.product, .equals, .none⟩
    let channels : List SelectOption := [⟨"1", "Balcão"⟩]
    let h : ValueEditor.History := [(0, .editor channel), (1, .resolve store),
      (2, .editor ⟨.store, .within, .none⟩), (3, .editor product),
      (4, .settle 1 (.error (.retrieval "offline"))), (5, .settle 0 (.ok channels))]
    let s : OptionSession := { cache := start.after (onCache h), backend := {}, clock := 6 }
    let t := ({ cache := start, backend := { script := [some (.ok channels)] } } :
      OptionSession).run [.resolve channel]
    t.resolve channel = (some (remote (some channels)), t.tick) ∧
      s.editor channel = (remote (some channels), s.tick) ∧
      (s.resolve channel).1 = some (remote (some channels)) ∧
      s.editor store = (freeText false, s.tick) ∧ (s.resolve store).1 = some (freeText false) ∧
      (s.resolve store).2.cache = s.cache ∧ s.editor product = (remote none, s.tick) := by
  intro start channel store product channels h s t
  obtain ⟨hsessions, hhistory⟩ := editors_agree 600 30
  have hresolved := hsessions { script := [some (.ok channels)] } true [.resolve channel]
  obtain ⟨-, hagain⟩ :=
    hresolved.settled channel ⟨0, .channel⟩ (.ok channels) 1 (by decide) (by rfl) (by decide)
  obtain ⟨-, hsession⟩ := hhistory h
  have hfetches : OptionCache.fetches start (onCache h) =
      [⟨0, .channel⟩, ⟨1, .store⟩, ⟨2, .product⟩] := by decide
  have hchannel : OptionCache.Current start (onCache h) ⟨0, .channel⟩ ((onCache h).drop 1) := {
    started := ⟨[], 0, rfl, by decide⟩
    kept := by decide
    latest := by simp [hfetches] }
  have hstore : OptionCache.Current start (onCache h) ⟨1, .store⟩ ((onCache h).drop 2) := {
    started := ⟨(onCache h).take 1, 1, rfl, by decide⟩
    kept := by decide
    latest := by simp [hfetches] }
  have hproduct : OptionCache.Current start (onCache h) ⟨2, .product⟩ ((onCache h).drop 3) := {
    started := ⟨(onCache h).take 2, 3, rfl, by decide⟩
    kept := by decide
    latest := by simp [hfetches] }
  obtain ⟨heditor, hresolve, -⟩ := (hsession s channel rfl).settled (by decide) _ _ hchannel rfl
    (.ok channels) 5 (by rfl) (by decide)
  obtain ⟨heditor', hresolve', hcache⟩ := (hsession s store rfl).settled (by decide) _ _ hstore rfl
    (.error (.retrieval "offline")) 4 (by rfl) (by decide)
  obtain ⟨hwaits, -⟩ := (hsession s product rfl).pending (by decide) _ _ hproduct rfl (by rfl)
  exact ⟨hagain, heditor, hresolve, heditor', hresolve', hcache, hwaits⟩

end Rehearsal.OptionSession

end SalesExplorer
