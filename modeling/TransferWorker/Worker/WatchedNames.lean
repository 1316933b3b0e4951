import TransferWorker.Ingestion.UploadedKeys
import TransferWorker.System.World

/-! # Files under the watched directory

The observer reports a file under the watched directory by the directory's name joined with the
components below it. Such a name determines the key of the file's objects and is determined by it.

* **`Settings.Watched`** — the names that the observer reports.
* **`Settings.Watched.relpath_eq`** — the key of such a file: the components below the directory.
* **`distinct_files_distinct_objects`** — two files never share an object. -/

namespace TransferWorker

open CallTrees

/-- `os.path.join(directory, path)`, of a relative path. -/
def pathJoin (directory path : String) : String :=
  if directory = "" ∨ directory.toList.getLast? = some '/' then directory ++ path
  else directory ++ "/" ++ path

/-- The name of a directory entry: not empty, neither `.` nor `..`, and without a slash. -/
structure EntryName (c : List Char) : Prop where
  /-- It is not empty. -/
  ne_nil : c ≠ []
  /-- It is not the directory itself. -/
  ne_dot : c ≠ ['.']
  /-- It is not the directory above. -/
  ne_dots : c ≠ ['.', '.']
  /-- It has no slash in it. -/
  slash : '/' ∉ c

/-- **The name of a file under the watched directory**, at any depth. -/
def Settings.Watched (settings : Settings) (name : String) : Prop :=
  ∃ rel : List (List Char), rel ≠ [] ∧ (∀ c ∈ rel, EntryName c) ∧
    name = pathJoin settings.watchDir (String.ofList (['/'].intercalate rel))

/-! ## Components -/

/-- Names of entries are appended by `normpath` as they are. -/
theorem foldl_normStep_entries {rel : List (List Char)} (h : ∀ c ∈ rel, EntryName c)
    (acc : List (List Char)) : rel.foldl normStep acc = rel.reverse ++ acc := by
  induction rel generalizing acc with
  | nil => rfl
  | cons c rel ih =>
      have hc : EntryName c := h c List.mem_cons_self
      have hstep : normStep acc c = c :: acc := by
        rw [normStep, if_neg (not_or.2 ⟨hc.ne_nil, hc.ne_dot⟩), if_neg hc.ne_dots]
      rw [List.foldl_cons, hstep, ih fun c' hc' => h c' (List.mem_cons_of_mem _ hc'),
        List.reverse_cons, List.append_assoc, List.singleton_append]

/-- The text of such a path is split into its components. -/
theorem splitOn_entries {rel : List (List Char)} (hne : rel ≠ []) (h : ∀ c ∈ rel, EntryName c) :
    (['/'].intercalate rel).splitOn '/' = rel :=
  List.splitOn_intercalate '/' (fun c hc => (h c hc).slash) hne

/-- It does not start with a slash. -/
theorem head_entries {rel : List (List Char)} (hne : rel ≠ []) (h : ∀ c ∈ rel, EntryName c) :
    (['/'].intercalate rel).head? ≠ some '/' := by
  intro hhead
  have hsplit := splitOn_entries hne h
  cases htext : ['/'].intercalate rel with
  | nil =>
      rw [htext] at hhead
      cases hhead
  | cons c text =>
      rw [htext] at hhead hsplit
      obtain rfl : c = '/' := Option.some.inj hhead
      -- the first component would be empty
      rw [show '/' :: text = [] ++ '/' :: text from rfl, List.splitOn_append_cons_self] at hsplit
      exact (h [] (by rw [← hsplit]; exact List.mem_append_left _ List.mem_cons_self)).ne_nil rfl

/-- The components of a path, by its text. -/
theorem absComponents_of_text {cwd path : String} {text : List Char} (h : path.toList = text) :
    absComponents cwd path = ((if text.head? = some '/' then text.splitOn '/'
      else cwd.toList.splitOn '/' ++ text.splitOn '/').foldl normStep []).reverse := by
  rw [absComponents, h]

/-- **The components of a joined path**: those of the directory, and those below it. -/
theorem absComponents_pathJoin (cwd directory : String) {rel : List (List Char)} (hne : rel ≠ [])
    (h : ∀ c ∈ rel, EntryName c) :
    absComponents cwd (pathJoin directory (String.ofList (['/'].intercalate rel))) =
      absComponents cwd directory ++ rel := by
  -- names of entries are neither empty nor dots, so they stay at the end
  have hfold : ∀ comps : List (List Char), ((comps ++ rel).foldl normStep []).reverse =
      (comps.foldl normStep []).reverse ++ rel := by
    intro comps
    rw [List.foldl_append, foldl_normStep_entries h, List.reverse_append, List.reverse_reverse]
  have hslash : ∀ comps : List (List Char),
      (comps ++ [[]]).foldl normStep [] = comps.foldl normStep [] := by
    intro comps
    rw [List.foldl_append, List.foldl_cons, List.foldl_nil, normStep, if_pos (Or.inl rfl)]
  unfold pathJoin
  split
  · rename_i hdir
    rcases hdir with rfl | hlast
    · -- relative to the working directory
      have hempty : ("" : String).toList = [] := rfl
      have htext : ("" ++ String.ofList (['/'].intercalate rel)).toList = ['/'].intercalate rel := by
        simp
      rw [absComponents_of_text htext, absComponents_of_text hempty, if_neg (head_entries hne h),
        splitOn_entries hne h, List.head?_nil, if_neg (by simp), List.splitOn_nil, hslash, hfold]
    · -- the directory's name ends in a slash
      obtain ⟨stem, hstem⟩ := List.getLast?_eq_some_iff.1 hlast
      have htext : (directory ++ String.ofList (['/'].intercalate rel)).toList =
          stem ++ '/' :: ['/'].intercalate rel := by
        rw [String.toList_append, String.toList_ofList, hstem, List.append_assoc,
          List.singleton_append]
      have hhead : (stem ++ '/' :: ['/'].intercalate rel).head? = (stem ++ ['/']).head? := by
        cases stem <;> rfl
      rw [absComponents_of_text htext, absComponents_of_text hstem, hhead,
        List.splitOn_append_cons_self, List.splitOn_append_cons_self, splitOn_entries hne h,
        List.splitOn_nil]
      split
      · rw [hfold, hslash]
      · rw [← List.append_assoc, ← List.append_assoc, hfold, hslash]
  · rename_i hdir
    rw [not_or] at hdir
    have htext : (directory ++ "/" ++ String.ofList (['/'].intercalate rel)).toList =
        directory.toList ++ '/' :: ['/'].intercalate rel := by
      simp
    have hhead : (directory.toList ++ '/' :: ['/'].intercalate rel).head? = directory.toList.head? := by
      cases hchars : directory.toList with
      | nil => exact absurd (String.toList_inj.1 hchars) hdir.1
      | cons c cs => rfl
    rw [absComponents_of_text htext, absComponents_of_text rfl, hhead, List.splitOn_append_cons_self,
      splitOn_entries hne h]
    split
    · rw [hfold]
    · rw [← List.append_assoc, hfold]

/-! ## Keys and objects -/

variable {settings : Settings} {name name' : String}

/-- **The key of a watched file** is its path below the directory, and names the file. -/
theorem Settings.Watched.relpath_eq (h : settings.Watched name) (cwd : String) :
    pathJoin settings.watchDir (relpath cwd name settings.watchDir) = name := by
  obtain ⟨rel, hne, hentries, rfl⟩ := h
  rw [relpath_of_under hne (absComponents_pathJoin cwd settings.watchDir hne hentries)]

/-- Different watched files have different keys. -/
theorem relpath_injOn (settings : Settings) (cwd : String) :
    Set.InjOn (fun name => relpath cwd name settings.watchDir) {name | settings.Watched name} := by
  intro name h name' h' hkey
  have hjoin := congrArg (pathJoin settings.watchDir) hkey
  rwa [h.relpath_eq cwd, h'.relpath_eq cwd] at hjoin

/-- The objects of a key. -/
def objectsOf (settings : Settings) (key : String) : List ObjectId :=
  (Watcher.destinations settings key).map Destination.object

/-- The objects of a key are one in each bucket. -/
theorem mem_objectsOf {key : String} {o : ObjectId} : o ∈ objectsOf settings key ↔
    o = (.awsS3, settings.s3Bucket, key) ∨ o = (.gcpGcs, settings.gcsBucket, key) := by
  simp [objectsOf, Watcher.destinations, Destination.object]

/-- An object is one of one key. -/
theorem key_of_mem_objectsOf {key key' : String} {o : ObjectId} (h : o ∈ objectsOf settings key)
    (h' : o ∈ objectsOf settings key') : key = key' := by
  have hkey : ∀ {k : String}, o ∈ objectsOf settings k → o.2.2 = k := by
    intro k hk
    rcases mem_objectsOf.1 hk with rfl | rfl <;> rfl
  exact (hkey h).symm.trans (hkey h')

/-- The bytes of a UTF-8 name are those that the name is encoded as. -/
theorem fsencode_of_fromUTF8? {path : Path} {name : String} (h : String.fromUTF8? path = some name) :
    fsencode name = path := by
  unfold String.fromUTF8? at h
  split at h
  · obtain rfl := Option.some.inj h
    rfl
  · cases h

/-- **Two files never share an object.** Whatever directory is watched, and from whatever working
directory: events built for two different files under it have no destination object in common. -/
theorem distinct_files_distinct_objects {H : Hashes} {cwd : String} {settings : Settings}
    {path path' : Path} {tr tr' : List (Answered calls Exn)} {e e' : TransferEvent}
    (hbuilt : (Watcher.buildEvent H cwd path settings).Makes tr (.ok e))
    (hbuilt' : (Watcher.buildEvent H cwd path' settings).Makes tr' (.ok e'))
    (hwatched : settings.Watched e.source.path) (hwatched' : settings.Watched e'.source.path)
    (hne : path ≠ path') :
    ∀ d ∈ e.destinations.val, ∀ d' ∈ e'.destinations.val, d.object ≠ d'.object := by
  obtain ⟨name, s, hname, -, rfl⟩ := makes_buildEvent_iff.1 hbuilt
  obtain ⟨name', s', hname', -, rfl⟩ := makes_buildEvent_iff.1 hbuilt'
  intro d hd d' hd' hobject
  have hmem : d.object ∈ objectsOf settings (relpath cwd name settings.watchDir) :=
    List.mem_map_of_mem hd
  have hmem' : d.object ∈ objectsOf settings (relpath cwd name' settings.watchDir) :=
    hobject ▸ List.mem_map_of_mem hd'
  have hkeys : relpath cwd name settings.watchDir = relpath cwd name' settings.watchDir :=
    key_of_mem_objectsOf hmem hmem'
  have hnames : name = name' := relpath_injOn settings cwd hwatched hwatched' hkeys
  apply hne
  rw [← fsencode_of_fromUTF8? hname, ← fsencode_of_fromUTF8? hname', hnames]

/-- Two files of the same base name, one of them in a directory of its own. -/
theorem distinct_objects_of_orders :
    ¬∃ d ∈ (Sighting.sample.event hashlib "/" "/watch/ORD-1.csv" {}).destinations.val,
      ∃ d' ∈ (Sighting.sample.event hashlib "/" "/watch/orders/ORD-1.csv" {}).destinations.val,
        d.object = d'.object := by
  have hfile : EntryName "ORD-1.csv".toList := by constructor <;> decide
  have hdir : EntryName "orders".toList := by constructor <;> decide
  have hwatched : ({} : Settings).Watched "/watch/ORD-1.csv" :=
    ⟨["ORD-1.csv".toList], by simp, by simpa using hfile, by decide +kernel⟩
  have hwatched' : ({} : Settings).Watched "/watch/orders/ORD-1.csv" :=
    ⟨["orders".toList, "ORD-1.csv".toList], by simp, by simpa using ⟨hdir, hfile⟩, by decide +kernel⟩
  have hne : fsencode "/watch/ORD-1.csv" ≠ fsencode "/watch/orders/ORD-1.csv" := by decide +kernel
  rintro ⟨d, hd, d', hd', hobject⟩
  exact distinct_files_distinct_objects (makes_buildEvent_watched _) (makes_buildEvent_watched _)
    hwatched hwatched' hne d hd d' hd' hobject

end TransferWorker
