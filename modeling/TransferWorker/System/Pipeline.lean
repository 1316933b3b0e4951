import TransferWorker.System.StoreSoundness
import TransferWorker.System.Threads
import TransferWorker.Worker.Keys
import TransferWorker.Worker.WatchedNames

/-! # The pipeline from the watched directory to the buckets

What the destinations of a file hold, as long as messages come from the watcher only and no upload outlives
its `upload_all`.

* **`Site`** — a watched directory, and the files that may be written in it.
* **`World.SecureBy`** — a content is secure by a key: if an upload run was for the key, the destinations
  have the content or are about to get it. **`World.Secure`** — it is so by its own key.
* **`Synced`** — the invariant of the files, the messages and the uploads; `Synced.move` and
  `Synced.responds` are the step lemmas.
* **`World.SecureBy.move`**, `SecureBy.responds` — what is secure by a key of the file stays so. -/

namespace TransferWorker

open CallTrees World

/-! ## Sites -/

/-- The fingerprints that events for some files may have: a size and a checksum need not be those of the
same content, since `build_event` takes the one after the other. -/
def fingerprintsOf (H : Hashes) (names : Set String) (contents : String → Set ByteArray) : Set Fingerprint :=
  {f | f.sourcePath ∈ names ∧ (∃ content ∈ contents f.sourcePath, f.sizeBytes = content.size) ∧
    ∃ content ∈ contents f.sourcePath, f.checksumSha256 = H.sha256 content}

/-- **A watched directory** with the files that may be written in it. -/
structure Site where
  /-- The hash functions. -/
  H : Hashes
  /-- The working directory. -/
  cwd : String
  /-- The settings. -/
  settings : Settings
  /-- The names of the files. -/
  names : Set String
  /-- The contents that each of them may have. -/
  contents : String → Set ByteArray
  /-- The files are under the watched directory. -/
  watched : ∀ name ∈ names, settings.Watched name
  /-- The authentication tells them apart. -/
  distinct : Set.InjOn (H.hmacSha256 settings.correlationSecret.toUTF8)
    (Fingerprint.message '' fingerprintsOf H names contents)

namespace Site

variable (S : Site)

/-- The key of a content at a path. -/
def key (name : String) (content : ByteArray) : String :=
  Fingerprint.key S.H S.settings.correlationSecret ⟨name, content.size, S.H.sha256 content⟩

/-- The objects of a file. -/
def objects (name : String) : List ObjectId :=
  objectsOf S.settings (relpath S.cwd name S.settings.watchDir)

/-- **A key of a file**: it was computed of the path, a size and a checksum that contents of the site
have. -/
def KeyOf (name key : String) : Prop :=
  ∃ f ∈ fingerprintsOf S.H S.names S.contents, f.sourcePath = name ∧ key = f.key S.H S.settings.correlationSecret

/-- **An event is about a file**: its path, the objects of the path, and a key of the file. -/
structure About (name : String) (e : TransferEvent) : Prop where
  /-- The path. -/
  path : e.source.path = name
  /-- The objects. -/
  objects : e.destinations.val.map Destination.object = S.objects name
  /-- The key. -/
  key : S.KeyOf name e.idempotencyKey.val

/-- An event about a file of the site. -/
def Sights (e : TransferEvent) : Prop := ∃ name ∈ S.names, S.About name e

/-- A body that decodes to such an event. -/
def SightsBody (body : ByteArray) : Prop :=
  ∃ e, TransferEvent.fromJsonBytes body = .ok e ∧ S.Sights e

variable {S} {name name' key : String} {e e' : TransferEvent} {content : ByteArray}

/-- What an event is about is a matter of its journey. -/
theorem About.of_journey (h : S.About name e) (hj : e'.journey = e.journey) : S.About name e' where
  path := (congrArg (fun e => e.source.path) hj).trans h.path
  objects := (congrArg (fun e => e.destinations.val.map Destination.object) hj).trans h.objects
  key := by
    obtain ⟨f, hf, hname, hkey⟩ := h.key
    exact ⟨f, hf, hname, (congrArg (fun e => e.idempotencyKey.val) hj).trans hkey⟩

/-- So is whether it is about a file of the site. -/
theorem Sights.of_journey (h : S.Sights e) (hj : e'.journey = e.journey) : S.Sights e' := by
  obtain ⟨name, hname, habout⟩ := h
  exact ⟨name, hname, habout.of_journey hj⟩

/-- The key of a content is one of the file. -/
theorem keyOf_key (hname : name ∈ S.names) (hcontent : content ∈ S.contents name) :
    S.KeyOf name (S.key name content) :=
  ⟨_, ⟨hname, ⟨content, hcontent, rfl⟩, content, hcontent, rfl⟩, rfl, rfl⟩

/-- No key is one of two files. -/
theorem KeyOf.name_eq (h : S.KeyOf name key) (h' : S.KeyOf name' key) : name = name' := by
  obtain ⟨f, hf, rfl, hkey⟩ := h
  obtain ⟨f', hf', rfl, hkey'⟩ := h'
  rw [Fingerprint.key_injOn S.distinct hf hf' (hkey.symm.trans hkey')]

/-- Files that share an object are the same. -/
theorem name_eq_of_mem_objects {o : ObjectId} (hname : name ∈ S.names) (hname' : name' ∈ S.names)
    (ho : o ∈ S.objects name) (ho' : o ∈ S.objects name') : name = name' :=
  relpath_injOn S.settings S.cwd (S.watched name hname) (S.watched name' hname')
    (key_of_mem_objectsOf ho ho')

end Site

/-! ## What the destinations hold -/

namespace World

variable (w : World)

/-- No upload in progress has read anything else for the object. -/
def Untainted (o : ObjectId) (content : ByteArray) : Prop :=
  ∀ run, w.active = some run → ∀ p ∈ run.parts, p.destination.object = o →
    ∀ content', p.state = .fetched content' → content' = content

/-- The object holds the content, and will. -/
def Copied (o : ObjectId) (content : ByteArray) : Prop := w.objects o = some content ∧ w.Untainted o content

/-- The object holds the content, or the run will read it from the file, or has read it. -/
def OnTheWay (run : UploadRun) (o : ObjectId) (content : ByteArray) : Prop :=
  w.Untainted o content ∧ (w.objects o = some content ∨ ∃ p ∈ run.parts, p.destination.object = o ∧
    (p.state = .pending ∨ p.state = .fetched content))

/-- **The content is secure at a path by a key**: if an upload run for the key had every destination ok, the
destinations hold it; if one is in progress and nothing has failed, they hold it or will. -/
structure SecureBy (S : Site) (key name : String) (content : ByteArray) : Prop where
  /-- After a run. -/
  done : w.OkRun key → ∀ o ∈ S.objects name, w.Copied o content
  /-- During a run. -/
  underway : ∀ run, w.active = some run → run.event.idempotencyKey.val = key →
    (∀ p ∈ run.parts, ∀ cls, p.state ≠ .failed cls) → ∀ o ∈ S.objects name, w.OnTheWay run o content

/-- The content is secure at a path: it is so by its own key. -/
abbrev Secure (S : Site) (name : String) (content : ByteArray) : Prop :=
  w.SecureBy S (S.key name content) name content

/-- **What moves the world in such a run**: no message comes from outside, no upload of an ended run
makes progress, and what is written is a content of the site that `may` be written then, or at a path that is
not UTF-8. -/
structure UndisturbedBy (S : Site) (may : World → String → ByteArray → Prop) (w w' : World) : Prop where
  /-- No message comes from outside. -/
  accepted : w'.accepted = w.accepted
  /-- The ended runs are over. -/
  runs : w'.runs = w.runs
  /-- What is written. -/
  files : ∀ path content, w'.files path = some content → w.files path = some content ∨
    (∃ name ∈ S.names, path = fsencode name ∧ content ∈ S.contents name ∧ may w name content) ∨
      String.fromUTF8? path = none

/-- **What moves the world if nothing is put back**: what is written is secure at its path. -/
structure Undisturbed (S : Site) (w w' : World) : Prop where
  /-- No message comes from outside. -/
  accepted : w'.accepted = w.accepted
  /-- The ended runs are over. -/
  runs : w'.runs = w.runs
  /-- What is written is secure. -/
  files : ∀ path content, w'.files path = some content → w.files path = some content ∨
    ∃ name ∈ S.names, path = fsencode name ∧ content ∈ S.contents name ∧ w.Secure S name content

/-- The upload run in progress, if there is one, is for an event about a file of the site, and uploads
that file. -/
def Uploads (S : Site) : Prop :=
  ∀ run, w.active = some run → S.Sights run.event ∧ run.path = fsencode run.event.source.path ∧
    run.parts.map Part.destination = run.event.destinations.val ∧ run.outcomes = none

end World

/-- **The invariant of the pipeline.** -/
structure Synced (S : Site) (w : World) : Prop where
  /-- The files are files of the site, or their names are not UTF-8. -/
  files : ∀ path content, w.files path = some content →
    (∃ name ∈ S.names, path = fsencode name ∧ content ∈ S.contents name) ∨ String.fromUTF8? path = none
  /-- The messages are events about them. -/
  entries : Everywhere S.settings (fun _ e => S.SightsBody e.message.body) w
  /-- So is the upload in progress. -/
  uploads : w.Uploads S
  /-- The store is sound. -/
  store : w.StoreSound

variable {S : Site} {w w' : World} {name key : String} {content : ByteArray}

/-- A file with a name in UTF-8 is one of the site. -/
theorem Synced.file (h : Synced S w) (hcontent : w.files (fsencode name) = some content) :
    name ∈ S.names ∧ content ∈ S.contents name := by
  rcases h.files _ _ hcontent with ⟨name', hname, hpath, hmem⟩ | hnone
  · obtain rfl : name = name' := String.toByteArray_inj.1 hpath
    exact ⟨hname, hmem⟩
  · have hsome : String.fromUTF8? (fsencode name) = some name := Json.fromUTF8?_toUTF8 name
    rw [hsome] at hnone
    cases hnone

/-! ## Steps that do not upload -/

/-- Security is a matter of the objects and the upload runs. -/
theorem World.SecureBy.of_same (h : w.SecureBy S key name content) (hobjects : w'.objects = w.objects)
    (hactive : w'.active = w.active) (hruns : w'.runs = w.runs) : w'.SecureBy S key name content := by
  have hclear : ∀ o, w.Untainted o content → w'.Untainted o content := by
    intro o ho
    unfold World.Untainted
    rw [hactive]
    exact ho
  constructor
  · intro hok o ho
    unfold World.OkRun at hok
    rw [hruns] at hok
    obtain ⟨hobject, hrest⟩ := h.done hok o ho
    exact ⟨(congrFun hobjects o).trans hobject, hclear o hrest⟩
  · intro run hrun hkey hfine o ho
    obtain ⟨hrest, hway⟩ := h.underway run (hactive ▸ hrun) hkey hfine o ho
    refine ⟨hclear o hrest, ?_⟩
    rw [hobjects]
    exact hway

/-- A content is secure at a path by a key if no upload run was for the key. -/
theorem World.SecureBy.of_unclaimed (hruns : ∀ run ∈ w.runs, run.event.idempotencyKey.val ≠ key)
    (hactive : ∀ run, w.active = some run → run.event.idempotencyKey.val ≠ key) :
    w.SecureBy S key name content where
  done hok := by
    obtain ⟨run, hrun, hkey, -⟩ := hok
    exact absurd hkey (hruns run hrun)
  underway run hrun hkey := absurd hkey (hactive run hrun)

/-- The invariant depends on the files, the messages, the uploads and the store. -/
theorem Synced.of_same (h : Synced S w)
    (hentries : Everywhere S.settings (fun _ e => S.SightsBody e.message.body) w')
    (hfiles : w'.files = w.files) (hactive : w'.active = w.active) (hstore : w'.StoreSound) : Synced S w' where
  files := hfiles ▸ h.files
  entries := hentries
  uploads := by
    unfold World.Uploads
    rw [hactive]
    exact h.uploads
  store := hstore

/-- The store stays sound while it and the ended runs stay as they are. -/
theorem World.StoreSound.of_same (h : w.StoreSound) (hstore : Aspect.store.Same w w')
    (hruns : w'.runs = w.runs) : w'.StoreSound := by
  have hquiet : Quiet w w' := .of_evolve hstore (hruns ▸ .refl _)
  exact hquiet.storeSound h

/-! ## The progress of an upload -/

section progress

variable {run : UploadRun} {before after : List Part} {p p' : Part} {o : ObjectId}

/-- The parts of a run of which one has moved. -/
theorem mem_parts_moved {q : Part} (h : q ∈ before ++ p' :: after) :
    q = p' ∨ q ∈ before ++ p :: after := by
  rw [List.mem_append, List.mem_cons] at h ⊢
  tauto

/-- An upload that reads the content of the file leaves the objects of the file clear. -/
theorem World.Untainted.progress (h : w.Untainted o content) (hrun : w.active = some run)
    (hparts : run.parts = before ++ p :: after) (hp : p.Progress w run.path p' w')
    (hfile : p.destination.object = o → ∀ x, w.files run.path = some x → x = content) :
    ({ w' with active := some { run with parts := before ++ p' :: after } } : World).Untainted o content := by
  intro run' hrun' q hq ho x hx
  obtain rfl := Option.some.inj hrun'
  rcases mem_parts_moved (p := p) hq with rfl | hq
  · cases hp with
    | fetch hread =>
        obtain rfl := PartState.fetched.inj hx
        exact hfile ho _ hread
    | store => cases hx
    | fail _ => cases hx
    | storeRaises => cases hx
  · exact h run hrun q (hparts ▸ hq) ho x hx

/-- It stores the content, if anything. -/
theorem objects_progress (h : w.Untainted o content) (hrun : w.active = some run)
    (hparts : run.parts = before ++ p :: after) (hp : p.Progress w run.path p' w')
    (hobject : w.objects o = some content) : w'.objects o = some content := by
  have hstored : ∀ x, p.state = .fetched x →
      Function.update w.objects p.destination.object (some x) o = some content := by
    intro x hx
    by_cases ho : o = p.destination.object
    · rw [ho, Function.update_self, h run hrun p (hparts ▸ by simp) ho.symm x hx]
    · rw [Function.update_of_ne ho, hobject]
  cases hp with
  | fetch _ => exact hobject
  | store => exact hstored _ rfl
  | fail _ => exact hobject
  | storeRaises => exact hstored _ rfl

/-- **One upload makes progress**: what is on the way stays on the way, unless it fails. -/
theorem World.OnTheWay.progress (h : w.OnTheWay run o content) (hrun : w.active = some run)
    (hparts : run.parts = before ++ p :: after) (hp : p.Progress w run.path p' w')
    (hfine : ∀ cls, p'.state ≠ .failed cls)
    (hfile : p.destination.object = o → ∀ x, w.files run.path = some x → x = content) :
    ({ w' with active := some { run with parts := before ++ p' :: after } } : World).OnTheWay
      { run with parts := before ++ p' :: after } o content := by
  obtain ⟨hclear, hway⟩ := h
  refine ⟨hclear.progress hrun hparts hp hfile, ?_⟩
  rcases hway with hobject | ⟨q, hq, ho, hstate⟩
  · have hkept : w'.objects o = some content := objects_progress hclear hrun hparts hp hobject
    exact .inl hkept
  · rw [hparts, List.mem_append, List.mem_cons] at hq
    by_cases hmoved : q = p
    · -- the part that was on the way is the one that moves
      subst hmoved
      cases hp with
      | fetch hread =>
          refine .inr ⟨_, List.mem_append_right _ List.mem_cons_self, ho, .inr ?_⟩
          rw [hfile ho _ hread]
      | store =>
          left
          rcases hstate with hstate | hstate
          · cases hstate
          · obtain rfl := PartState.fetched.inj hstate
            rw [← ho]
            exact Function.update_self ..
      | fail _ => exact absurd rfl (hfine _)
      | storeRaises => exact absurd rfl (hfine _)
    · refine .inr ⟨q, ?_, ho, hstate⟩
      rw [List.mem_append, List.mem_cons]
      tauto

/-- A part that moves has not failed. -/
theorem Part.Progress.fine (hp : p.Progress w run.path p' w') (cls : String) : p.state ≠ .failed cls := by
  intro hfailed
  cases hp with
  | fetch _ => cases hfailed
  | store => cases hfailed
  | fail h =>
      rcases h with rfl | ⟨x, rfl⟩ <;> cases hfailed
  | storeRaises => cases hfailed

end progress

/-- An upload of the run in progress moves. -/
theorem Synced.progress (h : Synced S w) {run run' : UploadRun} (hrun : w.active = some run)
    (hp : run.Progress w run' w') : Synced S { w' with active := some run' } := by
  obtain ⟨hevent, houtcomes, hpath, hdestinations⟩ := hp.run_eq
  obtain ⟨objects, rfl⟩ := hp.frame
  refine ⟨h.files, h.entries.of_eq rfl rfl rfl, ?_, h.store⟩
  intro r hr
  obtain rfl := Option.some.inj hr
  rw [hevent, hpath, hdestinations, houtcomes]
  exact h.uploads run hrun

/-- **What is secure stays so while an upload moves**: a part for an object of the file reads the file. -/
theorem World.SecureBy.progress (hs : w.SecureBy S key name content) (h : Synced S w)
    (hcontent : w.files (fsencode name) = some content) {run run' : UploadRun} (hrun : w.active = some run)
    (hp : run.Progress w run' w') : ({ w' with active := some run' } : World).SecureBy S key name content := by
  obtain ⟨hsights, hrunpath, hrundestinations, -⟩ := h.uploads run hrun
  obtain ⟨objects, rfl⟩ := hp.frame
  cases hp with
  | @part before after p p' _ halive hparts hp =>
      -- the run uploads the file if it has a part for one of its objects
      have hfile : ∀ o ∈ S.objects name, p.destination.object = o →
          ∀ x, w.files run.path = some x → x = content := by
        rintro o ho rfl x hx
        obtain ⟨name', hname', habout⟩ := hsights
        have hmem : p.destination.object ∈ S.objects name' := by
          rw [← habout.objects, ← hrundestinations]
          exact List.mem_map_of_mem (List.mem_map_of_mem (hparts ▸ by simp))
        have hsame : name' = name := Site.name_eq_of_mem_objects hname' (h.file hcontent).1 hmem ho
        rw [hrunpath, habout.path, hsame, hcontent] at hx
        exact (Option.some.inj hx).symm
      constructor
      · intro hok o ho
        obtain ⟨hobject, hclear⟩ := hs.done hok o ho
        have hkept : objects o = some content := objects_progress hclear hrun hparts hp hobject
        exact ⟨hkept, hclear.progress hrun hparts hp (hfile o ho)⟩
      · intro r hr hkey hfine o ho
        obtain rfl := Option.some.inj hr
        have hfine' : ∀ q ∈ run.parts, ∀ cls, q.state ≠ .failed cls := by
          intro q hq cls
          by_cases hmoved : q = p
          · rw [hmoved]
            exact hp.fine cls
          · refine hfine q ?_ cls
            rw [hparts, List.mem_append, List.mem_cons] at hq
            rw [List.mem_append, List.mem_cons]
            tauto
        exact (hs.underway run hrun hkey hfine' o ho).progress hrun hparts hp (hfine p' (by simp)) (hfile o ho)

/-! ## The world's own moves -/

/-- An upload that makes progress is not the same afterwards. -/
theorem UploadRun.Progress.ne {run run' : UploadRun} (h : run.Progress w run' w') : run' ≠ run := by
  intro heq
  cases h with
  | @part before after p p' _ halive hparts hp =>
      have hsame : before ++ p' :: after = before ++ p :: after := (congrArg parts heq).trans hparts
      have hmoved : p' = p := (List.cons.inj (List.append_cancel_left hsame)).1
      have hstate := congrArg Part.state hmoved
      cases hp with
      | fetch _ => cases hstate
      | store => cases hstate
      | fail h =>
          rcases h with rfl | ⟨x, rfl⟩ <;> cases hstate
      | storeRaises => cases hstate

variable {may : World → String → ByteArray → Prop}

/-- **The step lemma of the world.** -/
theorem Synced.move (h : Synced S w) (hm : Move S.settings w w') (hu : w.UndisturbedBy S may w') :
    Synced S w' := by
  -- a content that is written is one of the site
  have hfiles : ∀ path content, w'.files path = some content →
      (∃ name ∈ S.names, path = fsencode name ∧ content ∈ S.contents name) ∨ String.fromUTF8? path = none := by
    intro path content hcontent
    rcases hu.files path content hcontent with hold | ⟨name, hname, hpath, hmem, -⟩ | hnone
    · exact h.files path content hold
    · exact .inl ⟨name, hname, hpath, hmem⟩
    · exact .inr hnone
  cases hm with
  | accept m => exact absurd hu.accepted (by simp)
  | deliver _ _ hq => exact h.of_same (h.entries.deliver hq) rfl rfl h.store
  | @expire e rest properties hq =>
      have he := h.entries.queued S.settings.retryQueueName
      rw [hq] at he
      have hbody : S.SightsBody e.message.body := he e List.mem_cons_self
      have hrest := h.entries.setQueue S.settings.retryQueueName fun e' he' =>
        he e' (List.mem_cons_of_mem _ he')
      exact h.of_same (hrest.push hbody) rfl rfl h.store
  | @replay e before after properties remaining hq hrest =>
      have he := h.entries.queued S.settings.dlqName
      rw [hq] at he
      have hbody : S.SightsBody e.message.body := he e (by simp)
      have hremaining : ∀ e' ∈ remaining, S.SightsBody e'.message.body := by
        intro e' he'
        apply he
        rcases hrest with rfl | rfl
        · exact he'
        · rw [List.mem_append] at he' ⊢
          exact he'.imp_right (List.mem_cons_of_mem _)
      exact h.of_same ((h.entries.setQueue S.settings.dlqName hremaining).push hbody) rfl rfl h.store
  | breakChannel => exact h.of_same h.entries.closeChannel rfl rfl h.store
  | write path content => exact ⟨hfiles, h.entries.of_eq rfl rfl rfl, h.uploads, h.store⟩
  | remove path => exact ⟨hfiles, h.entries.of_eq rfl rfl rfl, h.uploads, h.store⟩
  | activeProgress _ hrun hp => exact h.progress hrun hp
  | lateProgress hruns hp =>
      -- an upload of a run that is over would change the run
      have hsame := hu.runs.trans hruns
      exact absurd (List.cons.inj (List.append_cancel_left hsame)).1 hp.ne
  | closed _ => exact h.of_same (h.entries.of_eq rfl rfl rfl) rfl rfl h.store
  | notified _ _ _ => exact h.of_same (h.entries.of_eq rfl rfl rfl) rfl rfl h.store
  | signal => exact h.of_same (h.entries.of_eq rfl rfl rfl) rfl rfl h.store

/-- **What is secure stays so**, whatever moves the world. -/
theorem World.SecureBy.move (hs : w.SecureBy S key name content) (h : Synced S w)
    (hcontent : w.files (fsencode name) = some content) (hm : Move S.settings w w')
    (hu : w.UndisturbedBy S may w') : w'.SecureBy S key name content := by
  cases hm with
  | activeProgress _ hrun hp => exact hs.progress h hcontent hrun hp
  | lateProgress hruns hp =>
      have hsame := hu.runs.trans hruns
      exact absurd (List.cons.inj (List.append_cancel_left hsame)).1 hp.ne
  -- the other moves touch neither an object nor an upload
  | _ => exact hs.of_same rfl rfl rfl

/-! ## The calls -/

/-- **What a thread guarantees when it makes a call.** -/
structure Guarantee (S : Site) (t : Thread) (w : World) (op : Op) : Prop where
  /-- The call is one that the thread may make. -/
  fits : op.Fits t
  /-- It publishes events about files of the site. -/
  publish : ∀ q m, op = .basicPublish q m → S.SightsBody m.body
  /-- It uploads the file that such an event is about. -/
  start : ∀ event path, op = .uploadStart event path →
    S.Sights event ∧ path = fsencode event.source.path
  /-- It marks a key done after an upload run for it with every destination ok. -/
  mark : ∀ key correlationId, op = .markDone key correlationId → w.OkRun key

variable {t : Thread} {op : Op} {r : Except Exn (Res op)}

/-- The messages stay events about files of the site. -/
theorem Synced.entries_responds (h : Synced S w) (hg : Guarantee S t w op)
    (hr : w.responds S.settings t op r w') :
    Everywhere S.settings (fun _ e => S.SightsBody e.message.body) w' := by
  by_cases ht : t = .consumer
  · subst ht
    exact h.entries.responds hr hg.publish
  · exact h.entries.others hg.fits ht hr hg.publish

/-- The tasks of an upload run are started. -/
theorem Synced.startUploads (h : Synced S w) {event : TransferEvent} (hevent : S.Sights event) :
    Synced S (w.startUploads event (fsencode event.source.path)) := by
  refine ⟨h.files, h.entries.of_eq rfl rfl rfl, ?_, h.store⟩
  intro run hrun
  obtain rfl := Option.some.inj hrun
  refine ⟨hevent, rfl, ?_, rfl⟩
  rw [List.map_map]
  exact List.map_id _

/-- **All destinations of a run that starts are on the way.** -/
theorem World.SecureBy.startUploads (hs : w.SecureBy S key name content) (hkey : S.KeyOf name key)
    {event : TransferEvent} (hevent : S.Sights event) :
    (w.startUploads event (fsencode event.source.path)).SecureBy S key name content := by
  have hpending : ∀ {run}, (w.startUploads event (fsencode event.source.path)).active = some run →
      ∀ p ∈ run.parts, p.state = .pending := by
    intro run hrun p hp
    obtain rfl := Option.some.inj hrun
    obtain ⟨d, -, rfl⟩ := List.mem_map.1 hp
    rfl
  have hclear : ∀ o, (w.startUploads event (fsencode event.source.path)).Untainted o content := by
    intro o run hrun p hp _ x hx
    rw [hpending hrun p hp] at hx
    cases hx
  constructor
  · intro hok o ho
    exact ⟨(hs.done hok o ho).1, hclear o⟩
  · intro run hrun hkey' _ o ho
    obtain rfl := Option.some.inj hrun
    -- an event with a key of the file is about it
    obtain ⟨name', hname', habout⟩ := hevent
    have hsame : name' = name := habout.key.name_eq (hkey' ▸ hkey)
    rw [← hsame, ← habout.objects] at ho
    obtain ⟨d, hd, rfl⟩ := List.mem_map.1 ho
    exact ⟨hclear _, .inr ⟨⟨d, .pending⟩, List.mem_map_of_mem hd, rfl, .inl rfl⟩⟩

/-- If every destination of a run is ok, all its parts have been stored. -/
theorem stored_of_allOk {run : UploadRun} {outcomes : List Outcome}
    (hparts : run.parts.map Part.destination = run.event.destinations.val)
    (houtcomes : List.Forall₂ (fun p o => p.state.Reports o) run.parts outcomes)
    (hok : UploadRun.AllOk { run with outcomes := some outcomes }) :
    ∀ p ∈ run.parts, ∃ x, p.state = .stored x := by
  obtain ⟨results, hresults, -, hall⟩ := hok
  obtain rfl := Option.some.inj hresults
  rw [← hparts] at hall
  clear hparts hresults
  generalize run.parts = parts at hall houtcomes
  induction houtcomes with
  | nil => exact fun p hp => absurd hp List.not_mem_nil
  | @cons p o ps os hreports _ ih =>
      simp only [List.map_cons, List.zipWith_cons_cons, List.mem_cons, forall_eq_or_imp] at hall
      intro q hq
      rcases List.mem_cons.1 hq with rfl | hq
      · have hreturned : o = .returned := (uploadOne_ok _ o).1 hall.1
        subst hreturned
        cases hstate : q.state with
        | stored x => exact ⟨x, rfl⟩
        | _ => exact absurd (hstate ▸ hreports) (by simp [PartState.Reports])
      · exact ih hall.2 q hq

/-- An upload run ends. -/
theorem Synced.endUploads (h : Synced S w) (run : UploadRun) : Synced S (w.endUploads run) := by
  refine ⟨h.files, h.entries.of_eq rfl rfl rfl, ?_, ?_⟩
  · intro run' hrun'
    cases hrun'
  · intro key hkey
    obtain ⟨run', hrun', hfine⟩ := h.store key hkey
    exact ⟨run', List.mem_append_left _ hrun', hfine⟩

/-- **If every destination of a run that ends was ok, the objects hold what was on the way.** -/
theorem World.SecureBy.endUploads (hs : w.SecureBy S key name content) (h : Synced S w) {run : UploadRun}
    (hrun : w.active = some run) {outcomes : Option (List Outcome)}
    (houtcomes : ∀ os, outcomes = some os →
      List.Forall₂ (fun p o => p.state.Reports o) run.parts os) :
    (w.endUploads { run with outcomes := outcomes }).SecureBy S key name content := by
  obtain ⟨-, -, hparts, -⟩ := h.uploads run hrun
  -- no run is active afterwards, so nothing taints an object
  have hidle : ∀ run', (w.endUploads { run with outcomes := outcomes }).active ≠ some run' := by
    intro run' hrun'
    cases hrun'
  have hclear : ∀ o, (w.endUploads { run with outcomes := outcomes }).Untainted o content :=
    fun o run' hrun' => absurd hrun' (hidle run')
  refine ⟨?_, fun run' hrun' => absurd hrun' (hidle run')⟩
  rintro ⟨run', hrun', hkey, hok⟩ o ho
  refine ⟨?_, hclear o⟩
  rcases List.mem_append.1 hrun' with hold | hnew
  · exact (hs.done ⟨run', hold, hkey, hok⟩ o ho).1
  · obtain rfl := List.mem_singleton.1 hnew
    cases outcomes with
    | none =>
        obtain ⟨results, hresults, -⟩ := hok
        cases hresults
    | some os =>
        -- all parts are stored, and each under way to what the file holds
        have hstored := stored_of_allOk hparts (houtcomes os rfl) hok
        have hfine : ∀ p ∈ run.parts, ∀ cls, p.state ≠ .failed cls := by
          intro p hp cls hfailed
          obtain ⟨x, hx⟩ := hstored p hp
          rw [hx] at hfailed
          cases hfailed
        obtain ⟨-, hobject | ⟨p, hp, -, hstate⟩⟩ := hs.underway run hrun hkey hfine o ho
        · exact hobject
        · obtain ⟨x, hx⟩ := hstored p hp
          rw [hx] at hstate
          rcases hstate with hstate | hstate <;> cases hstate

/-- What a call does to the uploads. -/
inductive UploadEffect (S : Site) (w : World) : World → Prop
  /-- Neither an object nor an upload run changes. -/
  | same {w' : World} (hobjects : w'.objects = w.objects) (hactive : w'.active = w.active)
      (hruns : w'.runs = w.runs) : UploadEffect S w w'
  /-- A run starts for an event about a file of the site. -/
  | starts {event : TransferEvent} (hevent : S.Sights event) :
      UploadEffect S w (w.startUploads event (fsencode event.source.path))
  /-- The run in progress ends, with outcomes that its uploads report or cut short. -/
  | ends {run : UploadRun} {outcomes : Option (List Outcome)} (hrun : w.active = some run)
      (houtcomes : ∀ os, outcomes = some os → List.Forall₂ (fun p o => p.state.Reports o) run.parts os) :
      UploadEffect S w (w.endUploads { run with outcomes := outcomes })

/-- **The effects of the calls on the uploads.** -/
theorem Synced.uploads_of_responds (h : Synced S w) (hg : Guarantee S t w op)
    (hr : w.responds S.settings t op r w') : UploadEffect S w w' := by
  by_cases huploads : op.changes .uploads = false
  · have hsame : Aspect.uploads.Same w w' := frame_of_responds huploads hr
    have hobjects : op.changes .objects = false := by cases op <;> rfl
    exact .same (frame_of_responds hobjects hr) (congrArg Prod.fst hsame) (congrArg Prod.snd hsame)
  · cases op with
    | uploadStart event path =>
        obtain ⟨hevent, rfl⟩ := hg.start event path rfl
        cases r with
        | ok x =>
            obtain rfl : w' = _ := hr
            exact .starts hevent
        | error e =>
            obtain rfl := hr.2
            exact .same rfl rfl rfl
    | uploadGather =>
        cases r with
        | ok outcomes =>
            obtain ⟨-, run, hrun, houtcomes, rfl⟩ := hr
            refine .ends hrun fun os hos => ?_
            obtain rfl := Option.some.inj hos
            exact houtcomes
        | error e =>
            cases hactive : w.active with
            | none =>
                have hsame : w.failing S.settings t .uploadGather w' := hr
                rw [World.failing, hactive] at hsame
                obtain rfl := hsame.2
                exact .same rfl rfl rfl
            | some run =>
                obtain rfl := failing_uploadGather S.settings t w hactive hr
                -- the run is cut short, so it has no outcomes
                have hnone : run.outcomes = none := (h.uploads run hactive).2.2.2
                refine .ends hactive fun os hos => ?_
                rw [hnone] at hos
                cases hos
    | _ => exact absurd rfl huploads

/-- **The step lemma of the calls**: a call that meets its guarantee keeps the invariant, whatever it
answers. -/
theorem Synced.responds (h : Synced S w) (hg : Guarantee S t w op)
    (hr : w.responds S.settings t op r w') : Synced S w' := by
  have hentries := h.entries_responds hg hr
  have hfiles : op.changes .files = false := by cases op <;> rfl
  have hstore : w'.StoreSound := by
    by_cases hstore : op.changes .store = false
    · have hprocessed : w'.processed = w.processed := frame_of_responds hstore hr
      cases h.uploads_of_responds hg hr with
      | same _ _ hruns => exact h.store.of_same hprocessed hruns
      | starts hevent => exact h.store
      | ends hrun houtcomes => exact (h.endUploads _).store
    · cases op with
      | markDone key correlationId =>
          -- a key is marked after an ok run for it only
          have hmark := h.store.markDone (hg.mark key correlationId rfl) correlationId
          cases r with
          | ok x =>
              obtain rfl : w' = _ := hr
              exact hmark
          | error e =>
              rcases hr with rfl | rfl
              · exact h.store
              · exact hmark
      | _ => exact absurd rfl hstore
  have hsame : w'.files = w.files := frame_of_responds hfiles hr
  refine ⟨hsame ▸ h.files, hentries, ?_, hstore⟩
  cases h.uploads_of_responds hg hr with
  | same _ hactive _ =>
      unfold World.Uploads
      rw [hactive]
      exact h.uploads
  | starts hevent => exact (h.startUploads hevent).uploads
  | ends hrun houtcomes => exact (h.endUploads _).uploads

/-- **What is secure by a key of the file stays so**, whatever call is made. -/
theorem World.SecureBy.responds (hs : w.SecureBy S key name content) (hkey : S.KeyOf name key)
    (h : Synced S w) (hg : Guarantee S t w op) (hr : w.responds S.settings t op r w') :
    w'.SecureBy S key name content := by
  cases h.uploads_of_responds hg hr with
  | same hobjects hactive hruns => exact hs.of_same hobjects hactive hruns
  | starts hevent => exact hs.startUploads hkey hevent
  | ends hrun houtcomes => exact hs.endUploads h hrun houtcomes

end TransferWorker
