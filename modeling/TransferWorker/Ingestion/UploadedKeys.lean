import TransferWorker.Ingestion.Functions
import TransferWorker.Worker.Building
import TransferWorker.Worker.Hashlib

/-! # Uploaded keys

Which of the objects that the worker uploads the GCP function takes. The key of an object is the path of
the file, seen from the watched directory; the function takes keys that start with `orders/` and end in
`.csv`.

* **`relpath_of_under`** — the key of a file under the watched directory.
* **`uploaded_key_taken_iff`** — which CSV files have a key that the function takes. -/

namespace TransferWorker

open CallTrees

/-! ## Components -/

section components

variable {α : Type} [DecidableEq α] {x : α}

/-- What a list is split into does not have the separator in it. -/
theorem not_mem_of_mem_splitOn {l piece : List α} (h : piece ∈ l.splitOn x) : x ∉ piece := by
  induction l generalizing piece with
  | nil =>
      rw [List.splitOn_nil, List.mem_singleton] at h
      rw [h]
      exact List.not_mem_nil
  | cons y l ih =>
      rw [List.splitOn_cons_eq_if_modifyHead] at h
      by_cases hy : y = x
      · rw [if_pos (beq_iff_eq.2 hy), List.mem_cons] at h
        rcases h with h | h
        · rw [h]
          exact List.not_mem_nil
        · exact ih h
      · rw [if_neg (mt beq_iff_eq.1 hy)] at h
        cases hsplit : l.splitOn x with
        | nil => exact absurd hsplit (List.splitOn_ne_nil x l)
        | cons head rest =>
            rw [hsplit] at ih h
            rw [List.modifyHead_cons, List.mem_cons] at h
            rcases h with h | h
            · have hhead := ih List.mem_cons_self
              rw [h, List.mem_cons, not_or]
              exact ⟨Ne.symm hy, hhead⟩
            · exact ih (List.mem_cons_of_mem _ h)

/-- When joined components start with a component and a separator. -/
theorem prefix_intercalate_iff {p : List α} {ls : List (List α)} (hp : x ∉ p) (hls : ∀ l ∈ ls, x ∉ l) :
    (p ++ [x]) <+: [x].intercalate ls ↔ ∃ rest, rest ≠ [] ∧ ls = p :: rest := by
  constructor
  · rintro ⟨t, ht⟩
    have hne : ls ≠ [] := by
      intro hnil
      rw [hnil, List.intercalate_nil] at ht
      simp at ht
    refine ⟨t.splitOn x, List.splitOn_ne_nil x t, ?_⟩
    rw [← List.splitOn_intercalate x hls hne, ← ht, List.append_assoc, List.singleton_append,
      List.splitOn_append_cons_self_of_not_mem hp]
  · rintro ⟨rest, hne, rfl⟩
    rw [List.intercalate_cons_of_ne_nil hne]
    exact ⟨_, by rw [List.append_assoc]⟩

omit [DecidableEq α] in
/-- Joined components end with the last one. -/
theorem suffix_intercalate (init : List (List α)) (last : List α) :
    last <:+ [x].intercalate (init ++ [last]) := by
  induction init with
  | nil => simp
  | cons l init ih =>
      rw [List.cons_append, List.intercalate_cons_of_ne_nil (by simp)]
      exact ih.trans (List.suffix_append _ _)

end components

/-! ## Relative paths -/

/-- A step of the normalisation keeps the components or adds one. -/
theorem mem_normStep {comps : List (List Char)} {comp c : List Char} (h : c ∈ normStep comps comp) :
    c ∈ comps ∨ c = comp := by
  unfold normStep at h
  split at h
  · exact .inl h
  · split at h
    · exact .inl (List.mem_of_mem_tail h)
    · rw [List.mem_cons] at h
      exact h.symm

/-- The components of a normalised path are components of the path. -/
theorem mem_foldl_normStep {comps acc : List (List Char)} {c : List Char}
    (h : c ∈ comps.foldl normStep acc) : c ∈ acc ∨ c ∈ comps := by
  induction comps generalizing acc with
  | nil => exact .inl h
  | cons comp comps ih =>
      rw [List.foldl_cons] at h
      rcases ih h with hacc | hrest
      · rcases mem_normStep hacc with hold | rfl
        · exact .inl hold
        · exact .inr List.mem_cons_self
      · exact .inr (List.mem_cons_of_mem _ hrest)

/-- A component of a path has no slash in it. -/
theorem slash_not_mem_absComponents {cwd path : String} {c : List Char} (h : c ∈ absComponents cwd path) :
    '/' ∉ c := by
  rw [absComponents, List.mem_reverse] at h
  have hcomps := (mem_foldl_normStep h).resolve_left List.not_mem_nil
  split at hcomps
  · exact not_mem_of_mem_splitOn hcomps
  · rcases List.mem_append.1 hcomps with hcwd | hpath
    · exact not_mem_of_mem_splitOn hcwd
    · exact not_mem_of_mem_splitOn hpath

/-- The common prefix of a path and a longer one is the path. -/
theorem commonPrefix_append (as bs : List (List Char)) : commonPrefix as (as ++ bs) = as.length := by
  induction as with
  | nil => cases bs <;> rfl
  | cons a as ih => rw [List.cons_append, commonPrefix, if_pos rfl, ih, List.length_cons]

/-- **The path of a file as seen from a directory above it**: the components below the directory. -/
theorem relpath_of_under {cwd path start : String} {rel : List (List Char)} (hne : rel ≠ [])
    (h : absComponents cwd path = absComponents cwd start ++ rel) :
    relpath cwd path start = String.ofList (['/'].intercalate rel) := by
  simp only [relpath, h, commonPrefix_append, Nat.sub_self, List.replicate_zero, List.nil_append,
    List.drop_left, if_neg hne]

/-- A name is taken if it begins with `orders/` and ends with `.csv`. -/
theorem isOrderCsv_iff {name : String} : isOrderCsv name = true ↔
    ("orders".toList ++ ['/']) <+: name.toList ∧ ".csv".toList <:+ name.toList := by
  rw [isOrderCsv, Bool.and_eq_true, List.isPrefixOf_iff_prefix, List.isSuffixOf_iff_suffix]
  rfl

/-- **Which keys of CSV files the function takes**: those whose first component is `orders`. -/
theorem isOrderCsv_relpath_iff {cwd path start : String} {dirs : List (List Char)} {file : List Char}
    (h : absComponents cwd path = absComponents cwd start ++ (dirs ++ [file]))
    (hcsv : ".csv".toList <:+ file) :
    isOrderCsv (relpath cwd path start) = true ↔ dirs.head? = some "orders".toList := by
  have hne : dirs ++ [file] ≠ [] := by simp
  have hslash : ∀ c ∈ dirs ++ [file], '/' ∉ c := fun c hc =>
    slash_not_mem_absComponents (by rw [h]; exact List.mem_append_right _ hc)
  have hsuffix : ".csv".toList <:+ ['/'].intercalate (dirs ++ [file]) :=
    hcsv.trans (suffix_intercalate dirs file)
  have hkey : (relpath cwd path start).toList = ['/'].intercalate (dirs ++ [file]) := by
    rw [relpath_of_under hne h, String.toList_ofList]
  rw [isOrderCsv_iff, hkey, and_iff_left hsuffix, prefix_intercalate_iff (by decide) hslash]
  generalize "orders".toList = orders
  cases dirs with
  | nil =>
      -- a file in the watched directory itself
      refine iff_of_false ?_ (by simp)
      rintro ⟨rest, hrest, heq⟩
      rw [List.nil_append, List.cons.injEq] at heq
      exact hrest heq.2.symm
  | cons dir dirs =>
      rw [List.head?_cons, Option.some.injEq]
      constructor
      · rintro ⟨rest, -, heq⟩
        rw [List.cons_append, List.cons.injEq] at heq
        exact heq.1
      · rintro rfl
        exact ⟨dirs ++ [file], by simp, rfl⟩

/-- **Which uploaded CSV files the ingestion takes**: the files in the directory `orders` of the watched
directory, at any depth. -/
theorem uploaded_key_taken_iff {H : Hashes} {cwd name : String} {path : Path} {settings : Settings}
    {tr : List (Answered calls Exn)} {e : TransferEvent} {dirs : List (List Char)} {file : List Char}
    (hbuilt : (Watcher.buildEvent H cwd path settings).Makes tr (.ok e))
    (hname : String.fromUTF8? path = some name)
    (hunder : absComponents cwd name = absComponents cwd settings.watchDir ++ (dirs ++ [file]))
    (hcsv : ".csv".toList <:+ file) :
    (∀ d ∈ e.destinations.val, isOrderCsv d.key = true) ↔ dirs.head? = some "orders".toList := by
  obtain ⟨name', s, hname', -, rfl⟩ := makes_buildEvent_iff.1 hbuilt
  cases hname.symm.trans hname'
  rw [← isOrderCsv_relpath_iff hunder hcsv]
  simp [Sighting.event, Watcher.destinations]

/-! ## Two files -/

/-- The watcher makes the event of a file. -/
theorem makes_buildEvent_watched (name : String) :
    (Watcher.buildEvent hashlib "/" (fsencode name) {}).Makes (Sighting.sample.trace (fsencode name))
      (.ok (Sighting.sample.event hashlib "/" name {})) :=
  makes_buildEvent_iff.2 ⟨name, Sighting.sample, Json.fromUTF8?_toUTF8 name, rfl, rfl⟩

/-- A file in the directory `orders`. -/
theorem uploaded_key_taken_orders :
    (∀ d ∈ (Sighting.sample.event hashlib "/" "/watch/orders/ORD-1.csv" {}).destinations.val,
      isOrderCsv d.key = true) ↔
    ["orders".toList].head? = some "orders".toList := by
  have hunder : absComponents "/" "/watch/orders/ORD-1.csv" =
      absComponents "/" ({} : Settings).watchDir ++ (["orders".toList] ++ ["ORD-1.csv".toList]) := by
    decide +kernel
  exact uploaded_key_taken_iff (makes_buildEvent_watched "/watch/orders/ORD-1.csv")
    (Json.fromUTF8?_toUTF8 _) hunder (by decide +kernel)

/-- **A file in the watched directory itself is ignored**: its key is its name. -/
theorem watched_csv_ignored :
    ((Watcher.buildEvent hashlib "/" (fsencode "/watch/ORD-1.csv") {}).Makes
        (Sighting.sample.trace (fsencode "/watch/ORD-1.csv"))
        (.ok (Sighting.sample.event hashlib "/" "/watch/ORD-1.csv" {}))) ∧
      absComponents "/" "/watch/ORD-1.csv" =
        absComponents "/" ({} : Settings).watchDir ++ ["ORD-1.csv".toList] ∧
      ".csv".toList <:+ "ORD-1.csv".toList ∧
      ∀ d ∈ (Sighting.sample.event hashlib "/" "/watch/ORD-1.csv" {}).destinations.val,
        d.key = "ORD-1.csv" ∧ isOrderCsv d.key = false := by
  refine ⟨makes_buildEvent_watched "/watch/ORD-1.csv", by decide +kernel, by decide +kernel, ?_⟩
  have hkey : relpath "/" "/watch/ORD-1.csv" ({} : Settings).watchDir = "ORD-1.csv" := by decide +kernel
  have hignored : isOrderCsv "ORD-1.csv" = false := by decide +kernel
  intro d hd
  simp only [Sighting.event, Watcher.destinations, hkey, List.mem_cons, List.not_mem_nil, or_false] at hd
  rcases hd with rfl | rfl
  · exact ⟨rfl, hignored⟩
  · exact ⟨rfl, hignored⟩

end TransferWorker
