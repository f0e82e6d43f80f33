import Mathlib.Data.List.Forall2
import Mathlib.Tactic.Common
import SalesExplorer.Proofs.Text.Runs
import SalesExplorer.Result.Table

/-!
# File names of exports

**Theorem (`file_names_blank_free`).** The part of a file name that a label gives is the label's
maximal runs with an underscore between two of them, whether the label has blanks or not. Taking the
part of a part changes nothing. The name of an export has no blank in it, whatever keys its metrics
have, and it does not change when white space in the keys is replaced by other white space.

The last statement needs the labels of the catalog: a key may have a label of its own, and then the
label is what the name shows. But no key with a label has a blank (`label_of_not_blankFree`), so the
keys in which white space is replaced are shown as they are, before and after.
-/

namespace SalesExplorer

open Text

variable {label key key' : String} {metrics metrics' : List Metric} {dimensions : List Dimension}

/-! ## Parts -/

theorem filenamePart_of_blankFree (h : BlankFree label.toList) : filenamePart label = label := by
  have hany : ¬label.toList.any isBlank = true := by
    rw [List.any_eq_true, ← not_blankFree_iff]
    exact not_not_intro h
  rw [filenamePart, if_neg hany]

/-- The short way for a label without blanks gives what the long way would give. -/
theorem filenamePart_eq (label : String) :
    filenamePart label = "_".intercalate ((words label.toList).map String.ofList) := by
  by_cases h : BlankFree label.toList
  · rw [filenamePart_of_blankFree h, h.words_eq]
    split
    · simp_all
    · simp
  · rw [filenamePart, if_pos (List.any_eq_true.2 (not_blankFree_iff.1 h))]

theorem blankFree_join {α : Type} {text : α → String} {xs : List α}
    (h : ∀ x ∈ xs, BlankFree (text x).toList) :
    BlankFree ("_".intercalate (xs.map text)).toList := by
  rw [String.toList_intercalate, List.map_map]
  refine BlankFree.intercalate (by decide) fun part hpart => ?_
  obtain ⟨x, hx, rfl⟩ := List.mem_map.1 hpart
  exact h x hx

theorem blankFree_filenamePart (label : String) : BlankFree (filenamePart label).toList := by
  rw [filenamePart_eq]
  refine blankFree_join fun word hword => ?_
  rw [String.toList_ofList]
  exact blankFree_of_mem_words hword

theorem filenamePart_filenamePart (label : String) :
    filenamePart (filenamePart label) = filenamePart label :=
  filenamePart_of_blankFree (blankFree_filenamePart label)

/-- The part is made of the maximal runs, of which there is one list. -/
theorem exists_runs_filenamePart (label : String) : ∃ runs : List (Nat × List Char),
    (∀ other, RunsOf label.toList other ↔ other = runs) ∧
      filenamePart label = "_".intercalate (runs.map fun r => String.ofList r.2) := by
  obtain ⟨runs, hruns, hwords⟩ := exists_runsOf label.toList
  refine ⟨runs, fun _ => runsOf_iff_eq hruns, ?_⟩
  rw [filenamePart_eq, ← hwords, List.map_map]
  rfl

/-! ## Keys and labels -/

theorem label_of_not_blankFree (h : ¬BlankFree key.toList) : Catalog.label key = key := by
  have hkeys : ∀ entry ∈ Catalog.labels, BlankFree entry.1.toList := by decide
  have hnone : Catalog.labels.lookup key = none := by
    rw [List.lookup_eq_none_iff]
    intro entry hentry
    have hne : key ≠ entry.1 := fun heq => h (heq ▸ hkeys entry hentry)
    simpa using hne
  rw [Catalog.label, hnone, Option.getD_none]

theorem filenamePart_label_of_respaced (h : Respaced key.toList key'.toList) :
    filenamePart (Catalog.label key) = filenamePart (Catalog.label key') := by
  rcases h.eq_or_not_blankFree with heq | ⟨hkey, hkey'⟩
  · rw [String.toList_inj.1 heq]
  · rw [label_of_not_blankFree hkey, label_of_not_blankFree hkey', filenamePart_eq, h.words_eq,
      ← filenamePart_eq]

/-! ## Names -/

theorem blankFree_exportFilename (metrics : List Metric) (dimensions : List Dimension) :
    BlankFree (exportFilename metrics dimensions).toList := by
  have hreport : BlankFree "report_".toList := by decide
  have hdims := blankFree_join fun (d : Dimension) (_ : d ∈ dimensions) =>
    blankFree_filenamePart (Catalog.label d.key)
  have hby : BlankFree "_by_".toList := by decide
  have hmetrics := blankFree_join fun (m : Metric) (_ : m ∈ metrics) =>
    blankFree_filenamePart (Catalog.label m.key)
  have hcsv : BlankFree ".csv".toList := by decide
  simp only [exportFilename, String.toList_append, blankFree_append]
  exact ⟨⟨⟨⟨hreport, hdims⟩, hby⟩, hmetrics⟩, hcsv⟩

theorem exportFilename_of_respaced
    (h : List.Forall₂ (fun m m' => Respaced m.key.toList m'.key.toList) metrics metrics') :
    exportFilename metrics' dimensions = exportFilename metrics dimensions := by
  have hparts : metrics'.map (fun m => filenamePart (Catalog.label m.key)) =
      metrics.map fun m => filenamePart (Catalog.label m.key) := by
    induction h with
    | nil => rfl
    | cons hkey _ ih =>
      rw [List.map_cons, List.map_cons, ih, filenamePart_label_of_respaced hkey]
  rw [exportFilename, hparts, exportFilename]

/-- **File names carry no white space.** Every label has one list of its maximal runs from left to
right, its part of the name is their join with underscores, and this part is its own part. So there
is no blank in the name of an export, whatever keys the metrics have, and the name stays the same
where white space in any of the keys is replaced by other white space. -/
theorem file_names_blank_free :
    (∀ label : String,
      (∃ runs : List (Nat × List Char), (∀ other, RunsOf label.toList other ↔ other = runs) ∧
        filenamePart label = "_".intercalate (runs.map fun r => String.ofList r.2)) ∧
      filenamePart (filenamePart label) = filenamePart label) ∧
    ∀ (metrics : List Metric) (dimensions : List Dimension),
      BlankFree (exportFilename metrics dimensions).toList ∧
      ∀ metrics' : List Metric,
        List.Forall₂ (fun m m' => Respaced m.key.toList m'.key.toList) metrics metrics' →
          exportFilename metrics' dimensions = exportFilename metrics dimensions :=
  ⟨fun label => ⟨exists_runs_filenamePart label, filenamePart_filenamePart label⟩,
    fun metrics dimensions => ⟨blankFree_exportFilename metrics dimensions,
      fun _ => exportFilename_of_respaced⟩⟩

/-- The first of two metrics has a key with blanks in front and inside, and all of them change. -/
theorem file_names_blank_free_respaced :
    let metrics : List Metric :=
      [⟨"total_amount", .sum, " Receita\u2003 bruta"⟩, .ofColumn "sale_id" .count]
    let metrics' : List Metric :=
      [⟨"total_amount", .sum, "\t\nReceita bruta"⟩, .ofColumn "sale_id" .count]
    List.Forall₂ (fun m m' => Respaced m.key.toList m'.key.toList) metrics metrics' ∧
      exportFilename metrics' [.dayOfWeek] = exportFilename metrics [.dayOfWeek] ∧
      exportFilename metrics [.dayOfWeek] = "report_Dia_da_Semana_by_Receita_bruta_Pedidos.csv" := by
  intro metrics metrics'
  have hinside : Respaced (['\u2003', ' '] ++ "bruta".toList) ([' '] ++ "bruta".toList) :=
    .replace (by decide) (by decide) (by decide) (by decide) (.refl _)
  have hkey : Respaced " Receita\u2003 bruta".toList "\t\nReceita bruta".toList := by
    show Respaced ([' '] ++ ("Receita".toList ++ (['\u2003', ' '] ++ "bruta".toList)))
      (['\t', '\n'] ++ ("Receita".toList ++ ([' '] ++ "bruta".toList)))
    exact .replace (by decide) (by decide) (by decide) (by decide) (hinside.append_left _)
  have hkeys : List.Forall₂ (fun m m' : Metric => Respaced m.key.toList m'.key.toList)
      metrics metrics' := .cons hkey (.cons (.refl _) .nil)
  exact ⟨hkeys, (file_names_blank_free.2 metrics [.dayOfWeek]).2 metrics' hkeys, by decide⟩

end SalesExplorer
