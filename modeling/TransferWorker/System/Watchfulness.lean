import TransferWorker.System.Announcements
import TransferWorker.System.Pipeline

/-! # The watcher announces every content

Runs of the whole process in which the watcher is not hindered, messages come from the watcher only, and no
upload outlives its `upload_all`; the consumer's calls may fail as they like. In such a run every content that
a file has is accounted for by a key: the content is secure by it, and an event with the key will come, for
the watcher will be told of the path, has the key in hand, or has announced it.

* **`World.Admits`** — a content may be written: it can be accounted for.
* **`pipelineBy`** — these runs; `duty` is what the threads owe each other.
* **`Watchful`** — the invariant; `Watchful.move` and `Watchful.responds` are the step lemmas.
* **`sound_watchful`** — the watcher keeps it. -/

namespace TransferWorker

open CallTrees World

/-! ## What the watcher knows -/

namespace World

variable (w : World) (S : Site)

/-- The watcher will be told of the path. -/
def Expected (path : Path) : Prop :=
  path ∈ w.fileQueue ∨ ∃ n ∈ w.notices, n.isDirectory = false ∧ n.srcPath = path

/-- An event with the key was accepted. -/
def Announced (key : String) : Prop :=
  ∃ m ∈ w.accepted, ∃ e, TransferEvent.fromJsonBytes m.body = .ok e ∧ e.idempotencyKey.val = key

/-- What the watcher found out about the last path that it took: the size and the content of its event. -/
def finding : Option (Path × Option Nat × Option ByteArray) :=
  w.inspections.head?.map fun i => (i.path, i.sized, i.digested)

/-- **The watcher has a key in hand for a content**: it has found a size, and the event will have this key if
the checksum that it takes, or has taken, is that of the content. -/
def InHand (name : String) (content : ByteArray) (key : String) : Prop :=
  ∃ n digested, w.finding = some (fsencode name, some n, digested) ∧
    key = Fingerprint.key S.H S.settings.correlationSecret ⟨name, n, S.H.sha256 (digested.getD content)⟩

/-- **A content may be written**: it is secure by a key that the rule permits, and an event with this key is
underway, unless it is the content's own. -/
def Admits (R : String → ByteArray → String → Prop) (name : String) (content : ByteArray) : Prop :=
  ∃ key, R name content key ∧ S.KeyOf name key ∧ w.SecureBy S key name content ∧
    (key = S.key name content ∨ w.Announced key ∨ w.InHand S name content key)

end World

/-- **What the watcher has in hand.** -/
inductive Hand where
  /-- Nothing. -/
  | empty
  /-- A path that it took. -/
  | taken (path : Path)
  /-- Such a path, and the size of the file. -/
  | sized (path : Path) (n : Nat)
  /-- Such a path, the size, and the content. -/
  | digested (path : Path) (n : Nat) (content : ByteArray)

namespace Hand

variable (S : Site)

/-- The path that the watcher has yet to look at. -/
def At (path : Path) : Hand → Prop
  | .taken p => p = path
  | .sized p _ => p = path
  | _ => False

/-- **The event that the watcher is about to make of a file has the key**, if the file keeps the content. -/
def Holds (name : String) (content : ByteArray) (key : String) : Hand → Prop
  | .empty => False
  | .taken path => fsencode name = path ∧ key = S.key name content
  | .sized path n => fsencode name = path ∧
      key = Fingerprint.key S.H S.settings.correlationSecret ⟨name, n, S.H.sha256 content⟩
  | .digested path n x => fsencode name = path ∧
      key = Fingerprint.key S.H S.settings.correlationSecret ⟨name, n, S.H.sha256 x⟩

/-- **The findings that go with it**; with nothing in hand, an event with the last findings was announced. -/
def Fits (R : String → ByteArray → String → Prop) (w : World) : Hand → Prop
  | .empty => ∀ name content key, R name content key → w.InHand S name content key →
      key = S.key name content ∨ w.Announced key
  | .taken path => w.finding = some (path, none, none)
  | .sized path n => w.finding = some (path, some n, none)
  | .digested path n x => w.finding = some (path, some n, some x)

end Hand

/-- **An event with the key will come for a content**: the key is its own and the watcher will be told of the
path; an event with the key was accepted; or the watcher holds what such an event is made of. -/
def Coming (S : Site) (hand : Hand) (w : World) (name : String) (content : ByteArray) (key : String) : Prop :=
  (key = S.key name content ∧ w.Expected (fsencode name)) ∨ w.Announced key ∨ hand.Holds S name content key

/-- **Every content of a file is accounted for**: by a key that the rule permits the content is secure, and an
event with this key will come. -/
def Accounted (S : Site) (R : String → ByteArray → String → Prop) (hand : Hand) (w : World) : Prop :=
  ∀ name content, w.files (fsencode name) = some content → ∃ key, R name content key ∧ S.KeyOf name key ∧
    w.SecureBy S key name content ∧ Coming S hand w name content key

/-- **What is known of the watcher** with that in hand. -/
structure Watchful (S : Site) (R : String → ByteArray → String → Prop) (hand : Hand) (w : World) : Prop where
  /-- The files, the messages and the uploads. -/
  synced : Synced S w
  /-- The contents. -/
  accounted : Accounted S R hand w
  /-- The findings. -/
  fits : hand.Fits S R w

variable {S : Site} {R : String → ByteArray → String → Prop} {hand : Hand}
  {t : Thread} {w w' : World} {op : Op} {name key : String} {content : ByteArray} {path : Path} {n : Nat}

/-! ## Findings -/

/-- The findings are those of the last inspection. -/
theorem World.finding_eq_some {sized : Option Nat} {digested : Option ByteArray} :
    w.finding = some (path, sized, digested) ↔ ∃ i is, w.inspections = i :: is ∧ i.path = path ∧
      i.sized = sized ∧ i.digested = digested := by
  unfold World.finding
  cases w.inspections with
  | nil => simp
  | cons i is => simp

/-- The watcher finds out something about the path at hand. -/
theorem World.finding_inspect {i : Inspection} {is : List Inspection} (h : w.inspections = i :: is)
    (f : Inspection → Inspection) :
    (w.inspect f).finding = some ((f i).path, (f i).sized, (f i).digested) := by
  unfold World.finding World.inspect
  rw [h]
  rfl

/-- The world's own moves leave the findings. -/
theorem finding_of_move {settings : Settings} (h : Move settings w w') : w'.finding = w.finding := by
  have hchanged : ∀ p, (w.inspections.map fun i : Inspection =>
      if i.path = p ∧ i.finished = false then { i with intact := false } else i).head?.map
        (fun i => (i.path, i.sized, i.digested)) = w.finding := by
    intro p
    rw [List.head?_map, Option.map_map, World.finding]
    congr 1
    funext i
    simp only [Function.comp]
    split <;> rfl
  cases h with
  | write path content => exact hchanged path
  | remove path => exact hchanged path
  | activeProgress _ _ hp =>
      obtain ⟨objects, rfl⟩ := hp.frame
      rfl
  | lateProgress _ hp =>
      obtain ⟨objects, rfl⟩ := hp.frame
      rfl
  | _ => rfl

/-- So do the calls of the other threads, and those of the watcher that neither take a path nor look at a
file. -/
theorem finding_of_responds {settings : Settings} {r : Except Exn (Res op)} (hop : op ≠ .fileQueueGet)
    (hlook : t = .watcher → ∀ path, op ≠ .getsize path ∧ op ≠ .readFile path)
    (h : w.responds settings t op r w') : w'.finding = w.finding := by
  by_cases hwatch : op.changes .watch = false
  · have hsame : Aspect.watch.Same w w' := frame_of_responds hwatch h
    have hinspections : w'.inspections = w.inspections := congrArg (fun a => a.2.2) hsame
    rw [World.finding, World.finding, hinspections]
  · -- whether a file is regular is no finding
    have hregular : ∀ b : Bool, (w.inspect fun i => { i with regular := b }).finding = w.finding := by
      intro b
      unfold World.finding World.inspect
      cases w.inspections <;> rfl
    cases op with
    | isfile path =>
        cases r with
        | ok b =>
            obtain ⟨-, rfl⟩ := h
            split
            · exact hregular b
            · rfl
        | error e =>
            obtain ⟨-, rfl⟩ := h
            rfl
    | getsize path =>
        have hwatcher : t ≠ .watcher := fun ht => (hlook ht path).1 rfl
        cases r with
        | ok n =>
            obtain ⟨-, rfl⟩ := h
            cases t <;> first | rfl | exact absurd rfl hwatcher
        | error e =>
            obtain rfl := h
            cases t <;> first | rfl | exact absurd rfl hwatcher
    | readFile path =>
        have hwatcher : t ≠ .watcher := fun ht => (hlook ht path).2 rfl
        cases r with
        | ok x =>
            obtain ⟨-, rfl⟩ := h
            cases t <;> first | rfl | exact absurd rfl hwatcher
        | error e =>
            obtain rfl := h
            cases t <;> first | rfl | exact absurd rfl hwatcher
    | fileQueueGet => exact absurd rfl hop
    | _ => exact absurd rfl hwatch

/-- An event that was accepted stays accepted. -/
theorem World.Announced.mono (h : w.Announced key) (haccepted : ∀ m ∈ w.accepted, m ∈ w'.accepted) :
    w'.Announced key := by
  obtain ⟨m, hm, hannounced⟩ := h
  exact ⟨m, haccepted m hm, hannounced⟩

/-- What is in hand is a matter of the findings. -/
theorem World.InHand.of_finding (h : w.InHand S name content key) (hfinding : w'.finding = w.finding) :
    w'.InHand S name content key := by
  obtain ⟨n, digested, hfound, hkey⟩ := h
  exact ⟨n, digested, hfinding.trans hfound, hkey⟩

/-- An event still comes while more is expected and accepted. -/
theorem Coming.mono (h : Coming S hand w name content key)
    (hexpected : w.Expected (fsencode name) → w'.Expected (fsencode name))
    (haccepted : ∀ m ∈ w.accepted, m ∈ w'.accepted) : Coming S hand w' name content key := by
  rcases h with ⟨hown, htold⟩ | hannounced | hholds
  · exact .inl ⟨hown, hexpected htold⟩
  · exact .inr (.inl (hannounced.mono haccepted))
  · exact .inr (.inr hholds)

/-- What the watcher has in hand fits the same findings. -/
theorem Hand.Fits.mono (h : hand.Fits S R w) (haccepted : ∀ m ∈ w.accepted, m ∈ w'.accepted)
    (hfinding : w'.finding = w.finding) : hand.Fits S R w' := by
  cases hand with
  | empty =>
      intro name content key hrule hhand
      exact (h name content key hrule (hhand.of_finding hfinding.symm)).imp_right fun ha => ha.mono haccepted
  | taken path => exact hfinding.trans h
  | sized path n => exact hfinding.trans h
  | digested path n x => exact hfinding.trans h

/-- **A key that is in hand will come.** -/
theorem Hand.Fits.coming (h : hand.Fits S R w) (hrule : R name content key)
    (hhand : w.InHand S name content key) : key = S.key name content ∨ w.Announced key ∨
      hand.Holds S name content key := by
  cases hand with
  | empty => exact (h name content key hrule hhand).imp_right .inl
  | taken path =>
      obtain ⟨n, digested, hfound, -⟩ := hhand
      cases hfound.symm.trans h
  | sized path n =>
      obtain ⟨m, digested, hfound, hkey⟩ := hhand
      have heq := hfound.symm.trans h
      simp only [Option.some.injEq, Prod.mk.injEq] at heq
      obtain ⟨hpath, rfl, rfl⟩ := heq
      exact .inr (.inr ⟨hpath, hkey⟩)
  | digested path n x =>
      obtain ⟨m, digested, hfound, hkey⟩ := hhand
      have heq := hfound.symm.trans h
      simp only [Option.some.injEq, Prod.mk.injEq] at heq
      obtain ⟨hpath, rfl, rfl⟩ := heq
      exact .inr (.inr ⟨hpath, hkey⟩)

/-! ## The world's own moves -/

/-- A file that has another content was written, and will be told of. -/
theorem wrote_of_move {settings : Settings} (hm : Move settings w w') (hnew : w'.files path = some content)
    (hold : w.files path ≠ some content) : w' = w.wrote path content := by
  cases hm with
  | write path' content' =>
      have hfile : Function.update w.files path' (some content') path = some content := hnew
      by_cases hpath : path = path'
      · subst hpath
        rw [Function.update_self] at hfile
        obtain rfl := Option.some.inj hfile
        rfl
      · rw [Function.update_of_ne hpath] at hfile
        exact absurd hfile hold
  | remove path' =>
      have hfile : Function.update w.files path' none path = some content := hnew
      by_cases hpath : path = path'
      · rw [hpath, Function.update_self] at hfile
        cases hfile
      · rw [Function.update_of_ne hpath] at hfile
        exact absurd hfile hold
  | activeProgress _ _ hp =>
      obtain ⟨objects, rfl⟩ := hp.frame
      exact absurd hnew hold
  | lateProgress _ hp =>
      obtain ⟨objects, rfl⟩ := hp.frame
      exact absurd hnew hold
  | _ => exact absurd hnew hold

/-- What the watcher will be told of it will be told of. -/
theorem expected_of_move {settings : Settings} (hm : Move settings w w') (h : w.Expected path) :
    w'.Expected path := by
  cases hm with
  | write p x => exact h.imp_right fun ⟨n, hn, hd⟩ => ⟨n, List.mem_append_left _ hn, hd⟩
  | @closed event rest hn =>
      have hqueue : ∀ p ∈ w.fileQueue, p ∈ DetectedFileHandler.onClosed event w.fileQueue := by
        intro p hp
        unfold DetectedFileHandler.onClosed
        split
        · exact hp
        · exact List.mem_append_left _ hp
      rcases h with hp | ⟨n, hmem, hfile, rfl⟩
      · exact .inl (hqueue path hp)
      · rw [hn] at hmem
        -- the notice itself goes to the queue of files
        rcases List.mem_cons.1 hmem with rfl | hrest
        · left
          show n.srcPath ∈ DetectedFileHandler.onClosed n w.fileQueue
          unfold DetectedFileHandler.onClosed
          rw [hfile]
          exact List.mem_append_right _ List.mem_cons_self
        · exact .inr ⟨n, hrest, hfile, rfl⟩
  -- other notices only add to the queue
  | notified event queue hq =>
      have hqueue : ∀ p ∈ w.fileQueue, p ∈ queue := by
        intro p hp
        rcases hq with rfl | rfl
        · unfold DetectedFileHandler.onClosed
          split
          · exact hp
          · exact List.mem_append_left _ hp
        · unfold DetectedFileHandler.onMoved
          split
          · exact hp
          · exact List.mem_append_left _ hp
      exact h.imp_left (hqueue path)
  | activeProgress _ _ hp =>
      obtain ⟨objects, rfl⟩ := hp.frame
      exact h
  | lateProgress _ hp =>
      obtain ⟨objects, rfl⟩ := hp.frame
      exact h
  | _ => exact h

/-- **The step lemma of the world**: what is written is accounted for. -/
theorem Watchful.move (h : Watchful S R hand w) (hm : Move S.settings w w')
    (hu : w.UndisturbedBy S (fun w => w.Admits S R) w') : Watchful S R hand w' := by
  have haccepted : ∀ m ∈ w.accepted, m ∈ w'.accepted := fun m hmem => hu.accepted.symm ▸ hmem
  refine ⟨h.synced.move hm hu, fun name content hcontent => ?_, h.fits.mono haccepted (finding_of_move hm)⟩
  by_cases hold : w.files (fsencode name) = some content
  · obtain ⟨key, hrule, hkey, hsecure, hcoming⟩ := h.accounted name content hold
    exact ⟨key, hrule, hkey, hsecure.move h.synced hold hm hu, hcoming.mono (expected_of_move hm) haccepted⟩
  · rcases hu.files _ _ hcontent with hsame | ⟨name', -, hpath, -, key, hrule, hkey, hsecure, hway⟩ | hnone
    · exact absurd hsame hold
    · obtain rfl : name = name' := String.toByteArray_inj.1 hpath
      obtain rfl := wrote_of_move hm hcontent hold
      refine ⟨key, hrule, hkey, hsecure.of_same rfl rfl rfl, ?_⟩
      have hway' : key = S.key name content ∨ w.Announced key ∨ hand.Holds S name content key := by
        rcases hway with hown | hannounced | hhand
        · exact .inl hown
        · exact .inr (.inl hannounced)
        · exact h.fits.coming hrule hhand
      refine hway'.imp (fun hown => ⟨hown, ?_⟩) (.imp_left fun ha => ha.mono haccepted)
      -- a file that is written is told of in the end
      have hnotice : ⟨false, fsencode name, fsencode name⟩ ∈
          (w.wrote (fsencode name) content).notices := List.mem_append_right _ List.mem_cons_self
      exact .inr ⟨_, hnotice, rfl, rfl⟩
    · have hsome : String.fromUTF8? (fsencode name) = some name := Json.fromUTF8?_toUTF8 name
      rw [hsome] at hnone
      cases hnone

/-! ## The calls -/

/-- A call changes no file. -/
theorem files_of_responds {settings : Settings} {r : Except Exn (Res op)}
    (h : w.responds settings t op r w') : w'.files = w.files := by
  have hfiles : op.changes .files = false := by cases op <;> rfl
  exact frame_of_responds hfiles h

/-- **The step lemma of the calls**, but those with which the watcher takes a path or looks at a file. -/
theorem Watchful.responds {r : Except Exn (Res op)} (h : Watchful S R hand w) (hg : Guarantee S t w op)
    (hop : op ≠ .fileQueueGet) (hlook : t = .watcher → ∀ path, op ≠ .getsize path ∧ op ≠ .readFile path)
    (hr : w.responds S.settings t op r w') : Watchful S R hand w' := by
  have haccepted : ∀ m ∈ w.accepted, m ∈ w'.accepted := fun m => accepted_mono hr
  obtain ⟨hqueue, hnotices⟩ := paths_of_responds hop hr
  have hexpected : ∀ path, w.Expected path → w'.Expected path := by
    intro path hpath
    rw [World.Expected, hqueue, hnotices]
    exact hpath
  refine ⟨h.synced.responds hg hr, fun name content hcontent => ?_,
    h.fits.mono haccepted (finding_of_responds hop hlook hr)⟩
  rw [files_of_responds hr] at hcontent
  obtain ⟨key, hrule, hkey, hsecure, hcoming⟩ := h.accounted name content hcontent
  exact ⟨key, hrule, hkey, hsecure.responds hkey h.synced hg hr, hcoming.mono (hexpected _) haccepted⟩

/-! ## What the watcher learns -/

/-- **What is accounted for with one thing in hand is so with another**, if every event still comes. -/
theorem Watchful.pass {hand' : Hand} (h : Watchful S R hand w) (hsynced : Synced S w')
    (hfits : hand'.Fits S R w') (hfiles : w'.files = w.files) (hobjects : w'.objects = w.objects)
    (hactive : w'.active = w.active) (hruns : w'.runs = w.runs)
    (hcoming : ∀ name content key, w.files (fsencode name) = some content →
      Coming S hand w name content key → Coming S hand' w' name content key) : Watchful S R hand' w' := by
  refine ⟨hsynced, fun name content hcontent => ?_, hfits⟩
  rw [hfiles] at hcontent
  obtain ⟨key, hrule, hkey, hsecure, hway⟩ := h.accounted name content hcontent
  exact ⟨key, hrule, hkey, hsecure.of_same hobjects hactive hruns, hcoming name content key hcontent hway⟩

/-- A path is taken from the queue. -/
theorem Watchful.take {rest : List Path} (h : Watchful S R .empty w) (hqueue : w.fileQueue = path :: rest)
    (hsynced : Synced S w') (hw : w' = { w with
      fileQueue := rest, inspections := { path := path } :: w.inspections }) :
    Watchful S R (.taken path) w' := by
  subst hw
  refine h.pass hsynced rfl rfl rfl rfl rfl fun name content key hcontent hcoming => ?_
  rcases hcoming with ⟨hown, hmem | hnotice⟩ | hannounced | hholds
  · rw [hqueue] at hmem
    rcases List.mem_cons.1 hmem with hpath | hrest
    · exact .inr (.inr ⟨hpath, hown⟩)
    · exact .inl ⟨hown, .inl hrest⟩
  · exact .inl ⟨hown, .inr hnotice⟩
  · exact .inr (.inl hannounced)
  · exact hholds.elim

/-- The size is that of the content at that moment. -/
theorem Watchful.size {x : ByteArray} (h : Watchful S R (.taken path) w) (hx : w.files path = some x)
    (hsynced : Synced S (w.noteSize .watcher x.size)) :
    Watchful S R (.sized path x.size) (w.noteSize .watcher x.size) := by
  obtain ⟨i, is, hinspections, hpath, -, hdigested⟩ := World.finding_eq_some.1 h.fits
  have hfinding : (w.noteSize .watcher x.size).finding = some (path, some x.size, none) := by
    have hfound := World.finding_inspect hinspections fun i => { i with sized := some x.size }
    rw [hpath, hdigested] at hfound
    exact hfound
  refine h.pass hsynced hfinding rfl rfl rfl rfl fun name content key hcontent hcoming => ?_
  rcases hcoming with htold | hannounced | ⟨rfl, hown⟩
  · exact .inl htold
  · exact .inr (.inl hannounced)
  · obtain rfl : content = x := Option.some.inj (hcontent.symm.trans hx)
    exact .inr (.inr ⟨rfl, hown⟩)

/-- The checksum is that of the content at a later moment; in the key the size may be an older one. -/
theorem Watchful.digest {x : ByteArray} (h : Watchful S R (.sized path n) w) (hx : w.files path = some x)
    (hsynced : Synced S (w.noteContent .watcher x)) :
    Watchful S R (.digested path n x) (w.noteContent .watcher x) := by
  obtain ⟨i, is, hinspections, hpath, hsized, -⟩ := World.finding_eq_some.1 h.fits
  have hfinding : (w.noteContent .watcher x).finding = some (path, some n, some x) := by
    have hfound := World.finding_inspect hinspections fun i => { i with finished := true, digested := some x }
    rw [hpath, hsized] at hfound
    exact hfound
  refine h.pass hsynced hfinding rfl rfl rfl rfl fun name content key hcontent hcoming => ?_
  rcases hcoming with htold | hannounced | ⟨rfl, hkey⟩
  · exact .inl htold
  · exact .inr (.inl hannounced)
  · obtain rfl : content = x := Option.some.inj (hcontent.symm.trans hx)
    exact .inr (.inr ⟨rfl, hkey⟩)

/-- **The file is gone**: there is nothing to account for. -/
theorem Watchful.gone (h : Watchful S R hand w) (hat : hand.At path) (hgone : w.files path = none)
    (hsynced : Synced S w') (hfound : ∀ p n digested, w'.finding ≠ some (p, some n, digested))
    (hfiles : w'.files = w.files) (hobjects : w'.objects = w.objects) (hactive : w'.active = w.active)
    (hruns : w'.runs = w.runs) (hpaths : w'.fileQueue = w.fileQueue ∧ w'.notices = w.notices)
    (haccepted : w'.accepted = w.accepted) : Watchful S R .empty w' := by
  refine h.pass hsynced ?_ hfiles hobjects hactive hruns fun name content key hcontent hcoming => ?_
  · rintro name content key - ⟨n, digested, hfinding, -⟩
    exact absurd hfinding (hfound _ _ _)
  · rcases hcoming with ⟨hown, htold⟩ | hannounced | hholds
    · rw [World.Expected, ← hpaths.1, ← hpaths.2] at htold
      exact .inl ⟨hown, htold⟩
    · exact .inr (.inl (hannounced.mono fun m hm => haccepted.symm ▸ hm))
    · -- only a file that is there would be held
      have hpath : fsencode name = path := by
        cases hand with
        | taken p => exact hholds.1.trans hat
        | sized p n => exact hholds.1.trans hat
        | _ => exact hat.elim
      rw [hpath, hgone] at hcontent
      cases hcontent

/-- The file is not regular, since it is gone. -/
theorem Watchful.irregular (h : Watchful S R (.taken path) w) (hgone : w.files path = none) :
    Watchful S R .empty w := by
  refine h.gone rfl hgone h.synced (fun p n digested hfound => ?_) rfl rfl rfl rfl ⟨rfl, rfl⟩ rfl
  cases hfound.symm.trans h.fits

/-- The file can no longer be read, since it is gone. -/
theorem Watchful.unreadable (h : Watchful S R hand w) (hat : hand.At path) (hgone : w.files path = none)
    (hsynced : Synced S (w.noteUnreadable .watcher)) : Watchful S R .empty (w.noteUnreadable .watcher) := by
  refine h.gone hat hgone hsynced (fun p n digested hfound => ?_) rfl rfl rfl rfl ⟨rfl, rfl⟩ rfl
  cases hinspections : w.inspections with
  | nil =>
      rw [World.noteUnreadable, World.finding, World.inspect, hinspections] at hfound
      cases hfound
  | cons i is =>
      rw [World.noteUnreadable, World.finding_inspect hinspections] at hfound
      cases hfound

/-- The name is not UTF-8: no event is built, and there is nothing to account for. -/
theorem Watchful.unnamed {x : ByteArray} (h : Watchful S R (.digested path n x) w)
    (hname : String.fromUTF8? path = none) : Watchful S R .empty w := by
  have hother : ∀ name, fsencode name ≠ path := by
    rintro name rfl
    rw [show String.fromUTF8? (fsencode name) = some name from Json.fromUTF8?_toUTF8 name] at hname
    cases hname
  refine h.pass h.synced ?_ rfl rfl rfl rfl fun name content key _ hcoming => ?_
  · intro name content key hrule hhand
    rcases h.fits.coming hrule hhand with hown | hannounced | hholds
    · exact .inl hown
    · exact .inr hannounced
    · exact absurd hholds.1 (hother name)
  · exact hcoming.imp_right (.imp_right fun hholds => hother name hholds.1)

/-- **An event with the findings was accepted.** -/
theorem Watchful.announce {x : ByteArray} (h : Watchful S R (.digested (fsencode name) n x) w)
    (hannounced : w.Announced (Fingerprint.key S.H S.settings.correlationSecret ⟨name, n, S.H.sha256 x⟩)) :
    Watchful S R .empty w := by
  have hholds : ∀ {name' content key}, (Hand.digested (fsencode name) n x).Holds S name' content key →
      w.Announced key := by
    rintro name' content key ⟨hname, rfl⟩
    obtain rfl : name' = name := String.toByteArray_inj.1 hname
    exact hannounced
  refine h.pass h.synced ?_ rfl rfl rfl rfl fun name content key _ hcoming => ?_
  · intro name content key hrule hhand
    rcases h.fits.coming hrule hhand with hown | hannounced | hheld
    · exact .inl hown
    · exact .inr hannounced
    · exact .inr (hholds hheld)
  · rcases hcoming with htold | hannounced | hheld
    · exact .inl htold
    · exact .inr (.inl hannounced)
    · exact .inr (.inl (hholds hheld))

/-! ## The runs -/

/-- **The watcher is not hindered**: it recognises and reads the files that are there, and its publications
are confirmed. -/
def World.Unhindered (w : World) : (op : Op) → Except Exn (Res op) → Prop
  | .isfile path, r => r = .ok false → w.files path = none
  | .getsize path, .error _ => w.files path = none
  | .readFile path, .error _ => w.files path = none
  | .basicPublish _ _, .error _ => False
  | _, _ => True

/-- The condition on the steps. -/
def pipelineByCondition (S : Site) (R : String → ByteArray → String → Prop) :
    Pool.Condition calls Exn World Thread where
  call t w op r := t = .watcher → w.Unhindered op r
  move w w' := w.UndisturbedBy S (fun w => w.Admits S R) w'
  restart _ := False

/-- **The process at a site**, in the runs that meet the condition. -/
def pipelineBy (S : Site) (R : String → ByteArray → String → Prop) :
    Pool calls Exn World (fun _ : Thread => Unit) :=
  (process S.H S.cwd S.settings).under (pipelineByCondition S R)

/-- What each thread owes the others: the invariant, and its guarantee. -/
def duty (S : Site) (t : Thread) : Contract calls World := ⟨Synced S, Guarantee S t⟩

/-- A thread among those that do their duty. -/
abbrev among (S : Site) (R : String → ByteArray → String → Prop) (t : Thread) : Environment calls Exn World :=
  (pipelineBy S R).view (duty S) t

/-- An assertion is stable if the moves and the calls of the other threads keep it. -/
theorem stable_among {A : World → Prop}
    (hmove : ∀ w w', A w → Move S.settings w w' → w.UndisturbedBy S (fun w => w.Admits S R) w' → A w')
    (hcall : ∀ w w' t' op r, A w → t' ≠ t → Guarantee S t' w op →
      w.responds S.settings t' op r w' → A w') : (among S R t).Stable A := by
  intro w w' h hm
  rcases hm with hm | ⟨t', ht', op, r, hguar, hr⟩
  · exact hmove w w' h hm.1 hm.2
  · exact hcall w w' t' op r h ht' hguar hr.1.2

/-- A call without consequences for what the destinations hold. -/
structure Op.Peaceful (S : Site) (t : Thread) (op : Op) : Prop where
  /-- It is one of the thread. -/
  fits : op.Fits t
  /-- It neither uploads nor marks a key done. -/
  free : op.free = true
  /-- It publishes events about files of the site. -/
  publish : ∀ q m, op = .basicPublish q m → S.SightsBody m.body

/-- A peaceful call meets its guarantee. -/
theorem Op.Peaceful.guarantee (h : op.Peaceful S t) : Guarantee S t w op where
  fits := h.fits
  publish := h.publish
  start event path hop := by
    have hfree := h.free
    rw [hop] at hfree
    cases hfree
  mark key correlationId hop := by
    have hfree := h.free
    rw [hop] at hfree
    cases hfree

/-- A call that belongs to no thread, and publishes nothing. -/
theorem Op.Peaceful.common (howner : op.owner = none) (hop : ∀ q m, op ≠ .basicPublish q m) :
    op.Peaceful S t where
  fits := .common howner
  free := by cases op <;> first | rfl | cases howner
  publish q m h := absurd h (hop q m)

/-- A publication of an event about a file of the site. -/
theorem Op.Peaceful.of_sights {q : String} {m : Message} (h : S.SightsBody m.body) :
    (Op.basicPublish q m).Peaceful S t where
  fits := .common rfl
  free := rfl
  publish q' m' heq := by
    obtain ⟨-, rfl⟩ := Op.basicPublish.inj heq
    exact h

/-- Peaceful calls keep the invariant. -/
theorem Synced.keeps : Keeps (among S R t) (duty S t) (Op.Peaceful S t) (Synced S) where
  stable := stable_among (fun _ _ h hm hu => h.move hm hu) fun _ _ _ _ _ h _ hguar hr =>
    h.responds hguar hr
  inv _ h := h
  guar _ _ hop _ := hop.guarantee
  responds _ _ _ _ hop h hr := h.responds hop.guarantee hr.1.2

/-! ## The watcher -/

/-- The calls of the watcher that neither take a path nor look at a file. -/
structure Op.Attentive (S : Site) (op : Op) : Prop where
  /-- They have no consequences for what the destinations hold. -/
  peaceful : op.Peaceful S .watcher
  /-- They take no path. -/
  ne_get : op ≠ .fileQueueGet
  /-- They do not look at a file. -/
  ne_look : ∀ path, op ≠ .getsize path ∧ op ≠ .readFile path

/-- Attentive calls keep the watcher watchful. -/
theorem keeps_watchful (hand : Hand) :
    Keeps (among S R .watcher) (duty S .watcher) (Op.Attentive S) (Watchful S R hand) where
  stable := by
    refine stable_among (fun _ _ h hm hu => h.move hm hu) ?_
    intro v v' t' op r h ht' hguar hr
    exact h.responds hguar (fun hop => hguar.fits.owner_ne ht' (hop ▸ rfl))
      (fun hwatcher => absurd hwatcher ht') hr
  inv _ h := h.synced
  guar _ _ hop _ := hop.peaceful.guarantee
  responds _ _ _ _ hop h hr := h.responds hop.peaceful.guarantee hop.ne_get (fun _ => hop.ne_look) hr.1.2

/-- A common call that publishes nothing and looks at no file is attentive. -/
theorem Op.Attentive.common (howner : op.owner = none) (hop : ∀ q m, op ≠ .basicPublish q m)
    (hlook : ∀ path, op ≠ .getsize path ∧ op ≠ .readFile path) : op.Attentive S := by
  refine ⟨.common howner hop, fun heq => ?_, hlook⟩
  rw [heq] at howner
  cases howner

/-- A reconnect is attentive. -/
theorem reconnects_attentive : Reconnects (Op.Attentive S) where
  close := .common rfl (by simp) (by simp)
  connect := .common rfl (by simp) (by simp)
  channel := .common rfl (by simp) (by simp)
  declare _ _ := .common rfl (by simp) (by simp)
  confirm := .common rfl (by simp) (by simp)

/-- A return empty-handed, an exception at any time. -/
def parting (S : Site) (R : String → ByteArray → String → Prop) : Except Exn Unit → World → Prop
  | .ok (), w => Watchful S R .empty w
  | .error _, w => Synced S w

/-- An exception ends a piece of the watcher. -/
theorem safe_leave {α : Type} {post : Except Exn α → World → Prop} {e : Exn}
    (hpost : ∀ v, Synced S v → post (.error e) v) (h : Synced S w) :
    Safe (among S R .watcher) (duty S .watcher) post (.raise e) w :=
  Synced.keeps.raise hpost h

/-- A piece of the watcher ends empty-handed. -/
theorem safe_emptyHanded (h : Watchful S R .empty w) :
    Safe (among S R .watcher) (duty S .watcher) (parting S R) (.ret ()) w :=
  (keeps_watchful .empty).ret (fun _ hv => hv) h

/-- What `build_event` leaves in hand: the findings with the key of the event. -/
def handing (S : Site) (R : String → ByteArray → String → Prop) (path : Path) :
    Except Exn TransferEvent → World → Prop
  | .ok e, w => S.Sights e ∧ ∃ name n x, path = fsencode name ∧
      e.idempotencyKey.val = Fingerprint.key S.H S.settings.correlationSecret ⟨name, n, S.H.sha256 x⟩ ∧
      Watchful S R (.digested path n x) w
  | .error _, w => Watchful S R .empty w

/-- The event that is built of a file of the site is about it. -/
theorem about_event {s : Sighting} (hname : name ∈ S.names)
    (hsize : ∃ content ∈ S.contents name, s.size = content.size) (hcontent : s.content ∈ S.contents name) :
    S.Sights (s.event S.H S.cwd name S.settings) :=
  ⟨name, hname, rfl, rfl, ⟨name, s.size, S.H.sha256 s.content⟩, ⟨hname, hsize, s.content, hcontent, rfl⟩, rfl,
    rfl⟩

/-- **`build_event`** leaves the findings in hand of which the event was built. -/
theorem handing_buildEvent (h : Watchful S R (.taken path) w) :
    Safe (among S R .watcher) (duty S .watcher) (handing S R path)
      (Watcher.buildEvent S.H S.cwd path S.settings) w := by
  have hlook : ∀ {op : Op} {v}, op.owner = none → (∀ q m, op ≠ .basicPublish q m) → Guarantee S .watcher v op :=
    fun howner hop => (Op.Peaceful.common howner hop).guarantee
  have hempty : ∀ {e v}, Watchful S R .empty v →
      Safe (among S R .watcher) (duty S .watcher) (handing S R path) (.raise e) v :=
    fun hv => (keeps_watchful .empty).raise (fun _ hu => hu) hv
  refine (keeps_watchful _).other_bind (fun v _ => hlook rfl (by simp)) (fun v n v' hv hr => ?_)
    (fun v e v' hv hr => ?_) h
  swap
  · have hsynced : Synced S v' := hv.synced.responds (hlook rfl (by simp)) hr.1.2
    obtain rfl : v' = v.noteUnreadable .watcher := hr.1.2
    exact hempty (hv.unreadable rfl (hr.2 rfl) hsynced)
  have hsynced : Synced S v' := hv.synced.responds (hlook rfl (by simp)) hr.1.2
  obtain ⟨⟨x, hx, rfl⟩, rfl⟩ := hr.1.2
  -- of a file with a name in UTF-8 the size is that of a content of the site
  have hsite : ∀ name, path = fsencode name → name ∈ S.names ∧ ∃ c ∈ S.contents name, x.size = c.size := by
    rintro name rfl
    obtain ⟨hname, hmem⟩ := hv.synced.file hx
    exact ⟨hname, x, hmem, rfl⟩
  refine (keeps_watchful _).other_bind (fun v _ => hlook rfl (by simp)) (fun u content u' hu hr => ?_)
    (fun u e u' hu hr => ?_) (hv.size hx hsynced)
  swap
  · have hsynced : Synced S u' := hu.synced.responds (hlook rfl (by simp)) hr.1.2
    obtain rfl : u' = u.noteUnreadable .watcher := hr.1.2
    exact hempty (hu.unreadable rfl (hr.2 rfl) hsynced)
  have hsynced : Synced S u' := hu.synced.responds (hlook rfl (by simp)) hr.1.2
  obtain ⟨hcontent, rfl⟩ := hr.1.2
  have hread : Watchful S R (.digested path x.size content) _ := hu.digest hcontent hsynced
  cases hutf : String.fromUTF8? path with
  | none => exact hempty (hread.unnamed hutf)
  | some name =>
      obtain rfl : path = fsencode name := (fsencode_of_fromUTF8? hutf).symm
      obtain ⟨hname, hsize⟩ := hsite name rfl
      have hmem : content ∈ S.contents name := (hu.synced.file hcontent).2
      have hfresh : Op.newUuid.Attentive S := .common rfl (by simp) (by simp)
      have hclock : Op.utcnow.Attentive S := .common rfl (by simp) (by simp)
      refine (keeps_watchful _).other_bind (fun v _ => hfresh.peaceful.guarantee)
        (fun v eventId v' hv hr => ?_) (fun v e v' _ hr => Bool.noConfusion hr.1.2.1) hread
      obtain ⟨hid, -⟩ := hr.1.2
      have hv' := (keeps_watchful _).responds _ _ _ _ hfresh hv hr
      refine (keeps_watchful _).other_bind (fun v _ => hfresh.peaceful.guarantee)
        (fun v correlationId v' hv hr => ?_) (fun v e v' _ hr => Bool.noConfusion hr.1.2.1) hv'
      obtain ⟨hcorrelation, -⟩ := hr.1.2
      have hv' := (keeps_watchful _).responds _ _ _ _ hfresh hv hr
      refine (keeps_watchful _).other_bind (fun v _ => hclock.peaceful.guarantee)
        (fun v time v' hv hr => ?_) (fun v e v' _ hr => Bool.noConfusion hr.1.2.1) hv'
      obtain ⟨htime, -⟩ := hr.1.2
      have hv' := (keeps_watchful _).responds _ _ _ _ hclock hv hr
      -- from what was found the event is built
      let sighting : Sighting :=
        ⟨x.size, content, ⟨eventId, hid⟩, ⟨correlationId, hcorrelation⟩, ⟨time, htime⟩⟩
      have hmake := sighting.make_eq S.H S.cwd name S.settings
      show Safe _ _ _ (Program.ofExcept _) _
      rw [hmake]
      exact (keeps_watchful _).ret
        (fun z hz => ⟨about_event hname hsize hmem, name, x.size, content, rfl, rfl, hz⟩) hv'

/-- **The publication** announces what is in hand. -/
theorem parting_publishWithReconnect {e : TransferEvent} (h : handing S R path (.ok e) w) :
    Safe (among S R .watcher) (duty S .watcher) (parting S R) (Watcher.publishWithReconnect S.settings e) w := by
  obtain ⟨hsights, name, n, x, rfl, hkey, hhand⟩ := h
  have hbody : S.SightsBody (Publisher.message e none none).body :=
    ⟨e, Publisher.fromJsonBytes_message e none none, hsights⟩
  have hpublish : (Op.basicPublish S.settings.queueName (Publisher.message e none none)).Attentive S :=
    ⟨.of_sights hbody, by simp, by simp⟩
  have hevent : Safe (among S R .watcher) (duty S .watcher)
      (fun r v => r = .ok () ∧ Watchful S R .empty v) (Publisher.publishEvent S.settings e) w := by
    refine Safe.perform (keeps_watchful _).stable (keeps_watchful _).inv
      (fun v _ => hpublish.peaceful.guarantee) (fun r => ?_) (fun v r v' hv hr => ?_) hhand
    · exact Environment.Stable.and Synced.keeps.stable
        (Environment.Stable.and (Environment.stable_const _) (keeps_watchful _).stable)
    · have hv' := (keeps_watchful _).responds _ _ _ _ hpublish hv hr
      cases r with
      | error e => exact (hr.2 rfl).elim
      | ok u =>
          obtain ⟨-, rfl⟩ := hr.1.2
          refine ⟨hv'.synced, rfl, hv'.announce ?_⟩
          have haccepted : ((v.publish S.settings .watcher S.settings.queueName
              (Publisher.message e none none)).confirm .watcher (Publisher.message e none none)).accepted =
                Publisher.message e none none :: v.accepted := if_pos ⟨rfl, rfl⟩
          refine ⟨Publisher.message e none none, ?_, e, Publisher.fromJsonBytes_message e none none, hkey⟩
          rw [haccepted]
          exact List.mem_cons_self
  refine hevent.attempt_bind fun r v hv _ => ?_
  obtain ⟨rfl, hv⟩ := hv
  exact safe_emptyHanded hv

/-- **A path that was taken.** -/
theorem parting_handlePath (h : Watchful S R (.taken path) w) :
    Safe (among S R .watcher) (duty S .watcher) (parting S R)
      (Watcher.handlePath S.H S.cwd S.settings path) w := by
  have hisfile : (Op.isfile path).Attentive S := .common rfl (by simp) (by simp)
  refine (keeps_watchful _).other_bind (fun v _ => hisfile.peaceful.guarantee) (fun v regular v' hv hr => ?_)
    (fun v e v' hv hr => ?_) h
  · have hv' := (keeps_watchful _).responds _ _ _ _ hisfile hv hr
    cases regular with
    | false =>
        have hnone : v.files path = none := hr.2 rfl rfl
        exact safe_emptyHanded (hv'.irregular ((congrFun (files_of_responds hr.1.2) path).trans hnone))
    | true =>
        refine (handing_buildEvent hv').attempt_bind fun r u hu _ => ?_
        cases r with
        | error e => exact safe_emptyHanded hu
        | ok e => exact parting_publishWithReconnect hu
  · exact safe_leave (fun _ hu => hu) ((keeps_watchful _).responds _ _ _ _ hisfile hv hr).synced

/-- What is known of the watcher: at the loop head nothing is in hand. -/
def watchfulPosts (S : Site) (R : String → ByteArray → String → Prop) : Service.Posts Exn Unit World :=
  ⟨fun _ => Watchful S R .empty, fun _ _ => Synced S, fun _ => Synced S⟩

/-- **One turn of the loop.** -/
theorem watchful_turn (h : Watchful S R .empty w) :
    Safe (among S R .watcher) (duty S .watcher) ((watchfulPosts S R).turn ())
      (Watcher.turn S.H S.cwd S.settings) w := by
  have hkeeps := keeps_watchful (S := S) (R := R) .empty
  have hstop : Op.stopIsSet.Attentive S := .common rfl (by simp) (by simp)
  refine hkeeps.call_bind hstop (fun _ _ hv => hv.synced) (fun v stop v' _ _ hv => ?_) h
  cases stop with
  | true => exact Synced.keeps.ret (fun _ hu => hu) hv.synced
  | false =>
      have hget : ∀ v, Guarantee S .watcher v .fileQueueGet := fun v =>
        ⟨.own rfl, by simp, by simp, by simp⟩
      refine hkeeps.other_bind (fun u _ => hget u) (fun u item u' hu hr => ?_)
        (fun u e u' _ hr => Bool.noConfusion hr.1.2.1) hv
      have hsynced : Synced S u' := hu.synced.responds (hget u) hr.1.2
      cases item with
      | none =>
          obtain ⟨-, rfl⟩ := hr.1.2
          have hidle : (Watcher.serviceIdleConnection S.settings).Calls (Op.Attentive S) :=
            calls_serviceIdleConnection reconnects_attentive (.common rfl (by simp) (by simp))
          exact hkeeps.bind hidle (fun _ _ hx => hx.synced) (fun _ _ hx => hkeeps.ret (fun _ hy => hy) hx) hu
      | some path =>
          obtain ⟨rest, hqueue, hw⟩ := hr.1.2
          exact (parting_handlePath (hu.take hqueue hsynced hw)).bind
            (fun _ _ hx _ => hkeeps.ret (fun _ hy => hy) hx) fun _ _ hx => hx

/-- **The watcher is watchful** at the head of its loop. -/
theorem sound_watchful : (watcherService S.H S.cwd S.settings).Sound (among S R .watcher) (duty S .watcher)
    (watchfulPosts S R) where
  turn _ _ _ h := watchful_turn h
  finish s r _ _ h := Synced.keeps.of_calls (calls_watcher_finish (.common rfl (by simp))
    (.common rfl (by simp)) (.common rfl (by simp)) (.common rfl (by simp)) s r) h

/-- It is so from the start. -/
theorem watchful_setup (h : Watchful S R .empty w) :
    Safe (among S R .watcher) (duty S .watcher) (watchfulPosts S R).setup
      (watcherService S.H S.cwd S.settings).setup w := by
  have hsetup : (watcherService S.H S.cwd S.settings).setup.Calls (Op.Attentive S) :=
    calls_watcher_setup reconnects_attentive (.common rfl (by simp) (by simp)) (.common rfl (by simp) (by simp))
      (.common rfl (by simp) (by simp)) (.common rfl (by simp) (by simp))
  refine ((keeps_watchful .empty).of_calls hsetup h).mono fun r v hv => ?_
  cases r with
  | ok u => exact hv
  | error e => exact hv.synced

end TransferWorker
