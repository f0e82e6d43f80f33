import SalesExplorer.Wire.Decoder

/-!
# Settings

The times after which results, option lists and headline figures are fetched again, in seconds, and
the size of the result cache. Each has a default, which holds where a source does not give it.
-/

namespace SalesExplorer

structure RetrievalSettings where
  windowSeconds : Nat := 30
  /-- The number of cached results; 0 turns the cache off. -/
  capacity : Nat := 1
  deriving DecidableEq

structure OptionSettings where
  listSeconds : Nat := 600
  failureSeconds : Nat := 30
  deriving DecidableEq

structure HeadlineSettings where
  windowSeconds : Nat := 300
  deriving DecidableEq

structure Settings where
  retrieval : RetrievalSettings := {}
  options : OptionSettings := {}
  headline : HeadlineSettings := {}
  deriving DecidableEq

/-! ## Decoding -/

namespace Wire

def retrievalLayout : Layout RetrievalSettings RetrievalSettings where
  name := "DispatcherConfig"
  fields := ["result_cache_ttl_secs", "result_cache_max_size"]
  strict := false
  blank := {}
  read d i s := match i with
    | 0 => do return { d with windowSeconds := ← natural UInt64.size "u64" s }
    | _ => do return { d with capacity := ← natural UInt64.size "usize" s }
  finish _ d := .ok d

def optionLayout : Layout OptionSettings OptionSettings where
  name := "FilterOptionsConfig"
  fields := ["ttl_secs", "failure_ttl_secs"]
  strict := false
  blank := {}
  read d i s := match i with
    | 0 => do return { d with listSeconds := ← natural UInt64.size "u64" s }
    | _ => do return { d with failureSeconds := ← natural UInt64.size "u64" s }
  finish _ d := .ok d

def headlineLayout : Layout HeadlineSettings HeadlineSettings where
  name := "KpiConfig"
  fields := ["ttl_secs"]
  strict := false
  blank := {}
  read d _ s := do return { d with windowSeconds := ← natural UInt64.size "u64" s }
  finish _ d := .ok d

def settingsLayout (medium : Medium) : Layout Settings Settings where
  name := "InsightConfig"
  fields := ["dispatcher", "filter_options", "kpi"]
  strict := false
  blank := {}
  read d i s := match i with
    | 0 => do return { d with retrieval := ← retrievalLayout.decode medium s }
    | 1 => do return { d with options := ← optionLayout.decode medium s }
    | _ => do return { d with headline := ← headlineLayout.decode medium s }
  finish _ d := .ok d

def settings (medium : Medium) : Decoder Settings := (settingsLayout medium).decode medium

end Wire

/-! ## Encoding -/

def RetrievalSettings.toJson (s : RetrievalSettings) : Json :=
  .obj [("result_cache_ttl_secs", .int s.windowSeconds), ("result_cache_max_size", .int s.capacity)]

def OptionSettings.toJson (s : OptionSettings) : Json :=
  .obj [("ttl_secs", .int s.listSeconds), ("failure_ttl_secs", .int s.failureSeconds)]

def HeadlineSettings.toJson (s : HeadlineSettings) : Json :=
  .obj [("ttl_secs", .int s.windowSeconds)]

def Settings.toJson (s : Settings) : Json :=
  .obj [("dispatcher", s.retrieval.toJson), ("filter_options", s.options.toJson),
    ("kpi", s.headline.toJson)]

end SalesExplorer
