import Mathlib.Data.List.Forall2
import TransferWorker.System.Frames
import TransferWorker.System.WatcherRules
import TransferWorker.Worker.Building
import TransferWorker.Worker.Hashlib

/-! # What becomes of detected files

One run of `run_watcher`, with the other parties moving the world as they like. Beside the world stands a
record of what became of every path that was taken from the queue: how many publications of its event
failed, and what the broker confirmed.

* **`watcherHost`** — the run.
* **`Inspection.Settled`** — when the event of a path has been confirmed; `settled_of_reachable` says
  that this holds at every loop head.
* **`never_drops_iff`** — when no detected file is dropped. -/

namespace TransferWorker

open CallTrees

/-! ## The record -/

/-- What became of a path that the watcher took. -/
structure Fate where
  /-- The publications that failed. -/
  failures : Nat := 0
  /-- The messages that the broker confirmed. -/
  confirmed : List Message := []

/-- The world, and the fates of the paths taken so far, the last one first. -/
abbrev Watched := World × List Fate

/-- What a call of the watcher adds to the record. -/
def recordCall : (op : Op) → Except Exn (Res op) → List Fate → List Fate
  | .fileQueueGet, .ok (some _), fs => {} :: fs
  | .basicPublish _ m, .ok _, f :: fs => { f with confirmed := m :: f.confirmed } :: fs
  | .basicPublish _ _, .error _, f :: fs => { f with failures := f.failures + 1 } :: fs
  | _, _, fs => fs

/-- What happens beside the watcher: the world's own moves and the calls of the consumer. -/
def Beside (settings : Settings) (w w' : World) : Prop :=
  Move settings w w' ∨ ∃ op r, op ≠ .fileQueueGet ∧ w.responds settings .consumer op r w'

/-- **One run of `run_watcher`**: its queue does not outlive it. -/
def watcherHost (H : Hashes) (cwd : String) (settings : Settings) : Host calls Exn Watched Unit where
  responds s op r s' := s.1.responds settings .watcher op r s'.1 ∧ s'.2 = recordCall op r s.2
  interfere s s' := Beside settings s.1 s'.1 ∧ s'.2 = s.2
  service := watcherService H cwd settings
  restart _ _ _ := False

/-- No path has been taken yet. -/
def Watched.Fresh (s : Watched) : Prop := s.1.inspections = [] ∧ s.2 = []

/-! ## What is claimed -/

section claim

variable (H : Hashes) (cwd : String) (settings : Settings)

/-- The message of an event that was built for a path. -/
def EventFor (path : Path) (m : Message) : Prop :=
  ∃ name s, String.fromUTF8? path = some name ∧
    m = Publisher.message (Sighting.event s H cwd name settings) none none

/-- An event for the path has been confirmed. -/
def Inspection.Published (i : Inspection) (f : Fate) : Prop :=
  ∃ m ∈ f.confirmed, EventFor H cwd settings i.path m

/-- A detected file: regular when it was checked, and there, unmodified and readable since then. -/
def Inspection.Detected (i : Inspection) : Prop := i.regular = true ∧ i.intact = true

/-- The name is UTF-8, and not both publications have failed. -/
def Inspection.Publishable (i : Inspection) (f : Fate) : Prop :=
  (String.fromUTF8? i.path).isSome = true ∧ f.failures < 2

/-- **No detected file is dropped**: each one taken so far has had an event confirmed, or is
queued again. -/
def NeverDrops (s : Watched) : Prop :=
  ∀ p ∈ s.1.inspections.zip s.2, p.1.Detected →
    p.1.Published H cwd settings p.2 ∨ p.1.path ∈ s.1.fileQueue

/-- The path of a file that was taken from the queue is settled: if the file is a detected one, an event for
it has been confirmed exactly if it was publishable. -/
def Inspection.Settled (i : Inspection) (f : Fate) : Prop :=
  i.Detected → (i.Published H cwd settings f ↔ i.Publishable f)

end claim

/-! ## Interference -/

/-- What the record of a path can lose: that the file is as it was. -/
structure Inspection.Fades (i i' : Inspection) : Prop where
  path : i'.path = i.path
  regular : i'.regular = i.regular
  intact : i'.intact = true → i.intact = true

/-- An inspection fades to itself. -/
theorem Inspection.Fades.refl (i : Inspection) : i.Fades i := ⟨rfl, rfl, id⟩

/-- What is detected of a faded inspection was detected before. -/
theorem Inspection.Fades.detected {i i' : Inspection} (h : i.Fades i') (hi : i'.Detected) : i.Detected :=
  ⟨h.regular.symm.trans hi.1, h.intact hi.2⟩

variable {H : Hashes} {cwd : String} {settings : Settings} {w w' : World} {s s' : Watched}

/-- What the watcher notes about a path is about the last one it took. -/
theorem inspections_inspect {i : Inspection} {is : List Inspection} (his : w.inspections = i :: is)
    (g : Inspection → Inspection) : (w.inspect g).inspections = g i :: is := by
  unfold World.inspect
  rw [his]

/-- A list of inspections fades to itself. -/
theorem forall₂_fades_refl (is : List Inspection) : List.Forall₂ Inspection.Fades is is :=
  List.forall₂_same.2 fun i _ => .refl i

/-- A call of the consumer does not touch what the watcher found out. -/
theorem inspections_of_consumer {op : Op} {r : Except Exn (Res op)} (hop : op ≠ .fileQueueGet)
    (h : w.responds settings .consumer op r w') : w'.inspections = w.inspections := by
  by_cases hwatch : op.changes .watch = false
  · have hsame : Aspect.Same w w' .watch := frame_of_responds hwatch h
    exact congrArg (fun a => a.2.2) hsame
  · -- the operations that look at a file note it for the watcher only
    cases op with
    | isfile path =>
        cases r with
        | ok b =>
            obtain ⟨-, rfl⟩ := h
            rfl
        | error e =>
            obtain ⟨-, rfl⟩ := h
            rfl
    | getsize path =>
        cases r with
        | ok n =>
            obtain ⟨-, rfl⟩ := h
            rfl
        | error e =>
            obtain rfl := h
            rfl
    | readFile path =>
        cases r with
        | ok content =>
            obtain ⟨-, rfl⟩ := h
            rfl
        | error e =>
            obtain rfl := h
            rfl
    | fileQueueGet => exact absurd rfl hop
    | _ => exact absurd rfl hwatch

/-- Marking some paths as changed. -/
theorem forall₂_fades_map (is : List Inspection) {f : Inspection → Inspection}
    (hf : ∀ i : Inspection, i.Fades (f i)) : List.Forall₂ Inspection.Fades is (is.map f) := by
  rw [List.forall₂_map_right_iff]
  exact List.forall₂_same.2 fun i _ => hf i

/-- **The world's own moves** only take files away. -/
theorem fades_of_move (h : Move settings w w') :
    List.Forall₂ Inspection.Fades w.inspections w'.inspections := by
  have hchanged : ∀ (path : Path) (i : Inspection),
      i.Fades (if i.path = path ∧ i.finished = false then { i with intact := false } else i) := by
    intro path i
    split
    · exact ⟨rfl, rfl, by simp⟩
    · exact .refl i
  cases h with
  | write path content => exact forall₂_fades_map _ (hchanged path)
  | remove path => exact forall₂_fades_map _ (hchanged path)
  | activeProgress _ _ hp =>
      obtain ⟨objects, rfl⟩ := hp.frame
      exact forall₂_fades_refl _
  | lateProgress _ hp =>
      obtain ⟨objects, rfl⟩ := hp.frame
      exact forall₂_fades_refl _
  | _ => exact forall₂_fades_refl _

/-- What happens beside the watcher fades its inspections at most. -/
theorem fades_of_beside (h : Beside settings w w') :
    List.Forall₂ Inspection.Fades w.inspections w'.inspections := by
  rcases h with hmove | ⟨op, r, hop, hr⟩
  · exact fades_of_move hmove
  · rw [inspections_of_consumer hop hr]
    exact forall₂_fades_refl _

/-! ## Assertions -/

/-- What is known of the path that the watcher looks at. -/
abbrev Finding := Inspection → Fate → Prop

/-- A finding that interference keeps. -/
def Finding.Lasting (A : Finding) : Prop := ∀ i i' f, A i f → i.Fades i' → A i' f

variable (H cwd settings) in
/-- All paths but the last one are settled, and this is known of the last one. -/
def Looking (A : Finding) (s : Watched) : Prop :=
  ∃ i is f fs, s.1.inspections = i :: is ∧ s.2 = f :: fs ∧ A i f ∧
    List.Forall₂ (Inspection.Settled H cwd settings) is fs

variable (H cwd settings) in
/-- All paths are settled. -/
def AllSettled (s : Watched) : Prop :=
  List.Forall₂ (Inspection.Settled H cwd settings) s.1.inspections s.2

/-- What was published of an inspection does not fade. -/
theorem Inspection.Fades.published {i i' : Inspection} {f : Fate} (h : i.Fades i') :
    i'.Published H cwd settings f ↔ i.Published H cwd settings f := by
  rw [Inspection.Published, Inspection.Published, h.path]

/-- Neither does whether it could be published. -/
theorem Inspection.Fades.publishable {i i' : Inspection} {f : Fate} (h : i.Fades i') :
    i'.Publishable f ↔ i.Publishable f := by
  rw [Inspection.Publishable, Inspection.Publishable, h.path]

/-- An inspection that is settled stays settled. -/
theorem lasting_settled : Finding.Lasting (Inspection.Settled H cwd settings) := by
  intro i i' f hi hfades hdetected
  rw [hfades.published, hfades.publishable]
  exact hi (hfades.detected hdetected)

/-- So do all inspections of a list. -/
theorem forall₂_settled_of_fades {is is' : List Inspection} {fs : List Fate}
    (h : List.Forall₂ (Inspection.Settled H cwd settings) is fs)
    (hfades : List.Forall₂ Inspection.Fades is is') :
    List.Forall₂ (Inspection.Settled H cwd settings) is' fs := by
  induction hfades generalizing fs with
  | nil => exact h
  | cons hi _ ih =>
      cases h with
      | cons hs hrest => exact .cons (lasting_settled _ _ _ hs hi) (ih hrest)

/-- A path that is settled is one of all the settled paths. -/
theorem Looking.allSettled {A : Finding} (h : Looking H cwd settings A s)
    (hA : ∀ i f, A i f → Inspection.Settled H cwd settings i f) : AllSettled H cwd settings s := by
  obtain ⟨i, is, f, fs, his, hfs, hi, hrest⟩ := h
  rw [AllSettled, his, hfs]
  exact .cons (hA i f hi) hrest

/-- A weaker finding. -/
theorem Looking.mono {A B : Finding} (h : Looking H cwd settings A s) (hAB : ∀ i f, A i f → B i f) :
    Looking H cwd settings B s := by
  obtain ⟨i, is, f, fs, his, hfs, hi, hrest⟩ := h
  exact ⟨i, is, f, fs, his, hfs, hAB i f hi, hrest⟩

/-! ## Rules -/

/-- Nothing is asked of a call. -/
def free : Contract calls Watched := ⟨fun _ => True, fun _ _ => True⟩

/-- The calls that neither look at a file nor publish. -/
def Op.Aside (op : Op) : Prop := op.changes .watch = false ∧ ∀ q m, op ≠ .basicPublish q m

/-- A call aside leaves the fates as they are. -/
theorem recordCall_of_aside {op : Op} (h : op.Aside) (r : Except Exn (Res op)) (fs : List Fate) :
    recordCall op r fs = fs := by
  obtain ⟨hwatch, hpublish⟩ := h
  cases op with
  | fileQueueGet => cases hwatch
  | basicPublish q m => exact absurd rfl (hpublish q m)
  | _ => rfl

/-- Such a call changes neither the findings nor the record. -/
theorem same_of_aside {op : Op} {r : Except Exn (Res op)} (hop : op.Aside)
    (h : (watcherHost H cwd settings).responds s op r s') :
    s'.1.inspections = s.1.inspections ∧ s'.2 = s.2 := by
  have hsame : Aspect.Same s.1 s'.1 .watch := frame_of_responds hop.1 h.1
  exact ⟨congrArg (fun a => a.2.2) hsame, h.2.trans (recordCall_of_aside hop r s.2)⟩

/-- The finding about the path at hand is stable if it lasts. -/
theorem stable_looking {A : Finding} (hA : A.Lasting) :
    (watcherHost H cwd settings).Stable (Looking H cwd settings A) := by
  intro s s' h hmove
  obtain ⟨i, is, f, fs, his, hfs, hi, hrest⟩ := h
  have hfades := fades_of_beside hmove.1
  rw [his] at hfades
  rcases List.forall₂_cons_left_iff.1 hfades with ⟨i', is', hi', his', heq⟩
  exact ⟨i', is', f, fs, heq, hmove.2.trans hfs, hA i i' f hi hi',
    forall₂_settled_of_fades hrest his'⟩

/-- That all inspections are settled is stable. -/
theorem stable_allSettled : (watcherHost H cwd settings).Stable (AllSettled H cwd settings) := by
  intro s s' h hmove
  rw [AllSettled, hmove.2]
  exact forall₂_settled_of_fades h (fades_of_beside hmove.1)

/-- What is known of the path lasts while the watcher makes other calls. -/
theorem keeps_looking {A : Finding} (hA : A.Lasting) :
    Keeps (watcherHost H cwd settings).toEnvironment free Op.Aside (Looking H cwd settings A) where
  stable := stable_looking hA
  inv _ _ := trivial
  guar _ _ _ _ := trivial
  responds s op r s' hop h hr := by
    obtain ⟨i, is, f, fs, his, hfs, hi, hrest⟩ := h
    obtain ⟨hi', hf'⟩ := same_of_aside hop hr
    exact ⟨i, is, f, fs, hi'.trans his, hf'.trans hfs, hi, hrest⟩

/-- Calls aside keep all inspections settled. -/
theorem keeps_allSettled :
    Keeps (watcherHost H cwd settings).toEnvironment free Op.Aside (AllSettled H cwd settings) where
  stable := stable_allSettled
  inv _ _ := trivial
  guar _ _ _ _ := trivial
  responds s op r s' hop h hr := by
    obtain ⟨hi', hf'⟩ := same_of_aside hop hr
    rw [AllSettled, hi', hf']
    exact h

/-- Nothing is known, and nothing is lost. -/
theorem keeps_watching :
    Keeps (watcherHost H cwd settings).toEnvironment free (fun _ => True) (fun _ => True) where
  stable _ _ _ _ := trivial
  inv _ _ := trivial
  guar _ _ _ _ := trivial
  responds _ _ _ _ _ _ _ := trivial

/-- A program after whose exceptions nothing is claimed. -/
def ending (A : Watched → Prop) : Except Exn Unit → Watched → Prop
  | .ok (), s => A s
  | .error _, _ => True

/-- An exception ends a piece of the watcher. -/
theorem safe_raise {α : Type} {post : Except Exn α → Watched → Prop} {e : Exn}
    (hpost : ∀ s, post (.error e) s) :
    Safe (watcherHost H cwd settings).toEnvironment free post (.raise e) s :=
  keeps_watching.raise (fun s _ => hpost s) trivial

/-- A return in a state in which all paths are settled. -/
theorem safe_settled (h : AllSettled H cwd settings s) :
    Safe (watcherHost H cwd settings).toEnvironment free (ending (AllSettled H cwd settings)) (.ret ()) s :=
  keeps_allSettled.ret (fun _ hs => hs) h

/-! ## Publishing -/

/-- The path and its fate so far. -/
def At (path : Path) (f₀ : Fate) : Finding := fun i f => i.path = path ∧ f = f₀

/-- The finding that a path is at hand lasts. -/
theorem lasting_at (path : Path) (f₀ : Fate) : (At path f₀).Lasting :=
  fun _ _ _ h hfades => ⟨hfades.path.trans h.1, h.2⟩

variable {path : Path} {e : TransferEvent} {f₀ : Fate}

/-- What a publication adds to the fate of a path. -/
def Fate.after (f : Fate) (m : Message) : Except Exn Unit → Fate
  | .ok () => { f with confirmed := m :: f.confirmed }
  | .error _ => { f with failures := f.failures + 1 }

/-- **One publication.** -/
theorem safe_publishEvent (h : Looking H cwd settings (At path f₀) s) :
    Safe (watcherHost H cwd settings).toEnvironment free
      (fun r => Looking H cwd settings (At path (f₀.after (Publisher.message e none none) r)))
      (Publisher.publishEvent settings e) s := by
  have hstable : ∀ r, (watcherHost H cwd settings).Stable fun v => free.inv v ∧
      Looking H cwd settings (At path (f₀.after (Publisher.message e none none) r)) v :=
    fun r => Environment.Stable.and (fun _ _ _ _ => trivial) (stable_looking (lasting_at path _))
  refine Safe.perform (stable_looking (lasting_at path f₀)) (fun _ _ => trivial) (fun _ _ => trivial)
    hstable ?_ h
  rintro v r v' ⟨i, is, f, fs, his, hfs, ⟨hi, rfl⟩, hrest⟩ hr
  have hsame : Aspect.Same v.1 v'.1 .watch := frame_of_responds rfl hr.1
  have hinspections : v'.1.inspections = i :: is := (congrArg (fun a => a.2.2) hsame).trans his
  have hfate : v'.2 = f.after (Publisher.message e none none) r :: fs := by
    rw [hr.2, hfs]
    cases r <;> rfl
  exact ⟨trivial, i, is, _, fs, hinspections, hfate, ⟨hi, rfl⟩, hrest⟩

/-- A confirmed event settles its path, after one failure too. -/
theorem settled_of_confirmed (hevent : EventFor H cwd settings path (Publisher.message e none none))
    (hfailures : f₀.failures < 2) (i : Inspection) (f : Fate)
    (h : At path (f₀.after (Publisher.message e none none) (.ok ())) i f) :
    Inspection.Settled H cwd settings i f := by
  obtain ⟨rfl, rfl⟩ := h
  intro _
  refine iff_of_true ⟨_, List.mem_cons_self, hevent⟩ ⟨?_, hfailures⟩
  obtain ⟨name, _, hname, _⟩ := hevent
  rw [hname]
  rfl

/-- Two failures settle it too. -/
theorem settled_of_failures (i : Inspection) (f : Fate) (h : At path { failures := 2 } i f) :
    Inspection.Settled H cwd settings i f := by
  obtain ⟨-, rfl⟩ := h
  intro _
  refine iff_of_false ?_ fun hpublishable => absurd hpublishable.2 (by simp)
  rintro ⟨m, hm, -⟩
  cases hm

/-- A reconnect is aside. -/
theorem reconnects_aside : Reconnects Op.Aside where
  close := ⟨rfl, by simp⟩
  connect := ⟨rfl, by simp⟩
  channel := ⟨rfl, by simp⟩
  declare _ _ := ⟨rfl, by simp⟩
  confirm := ⟨rfl, by simp⟩

/-- **Publishing with one reconnect** settles the path, if it returns. -/
theorem settles_publishWithReconnect (hevent : EventFor H cwd settings path (Publisher.message e none none))
    (h : Looking H cwd settings (At path {}) s) :
    Safe (watcherHost H cwd settings).toEnvironment free (ending (AllSettled H cwd settings))
      (Watcher.publishWithReconnect settings e) s := by
  refine (safe_publishEvent h).attempt_bind fun r v hv _ => ?_
  cases r with
  | ok u =>
      have hfailures : Fate.failures {} < 2 := Nat.zero_lt_two
      exact safe_settled (hv.allSettled (settled_of_confirmed hevent hfailures))
  | error exn =>
      dsimp only
      split
      · -- the first publication has failed with an AMQP error
        have hreconnect : (Watcher.reconnect settings).Calls Op.Aside := calls_reconnect reconnects_aside
        refine (keeps_looking (lasting_at path _)).bind hreconnect (fun _ _ _ => trivial)
          (fun _ u hu => ?_) hv
        refine (safe_publishEvent hu).attempt_bind fun r u hu _ => safe_settled ?_
        cases r with
        | ok _ =>
            have hfailures : Fate.failures { failures := 1 } < 2 := Nat.one_lt_two
            exact hu.allSettled (settled_of_confirmed hevent hfailures)
        | error _ => exact hu.allSettled settled_of_failures
      · exact safe_raise fun _ => trivial

/-! ## Building -/

/-- No event was built for the path: if the file was as before, the name is not UTF-8. -/
def Unbuilt (path : Path) : Finding := fun i f =>
  i.path = path ∧ f = {} ∧ (i.intact = true → String.fromUTF8? path = none)

/-- The finding that no event was built of the path lasts. -/
theorem lasting_unbuilt (path : Path) : (Unbuilt path).Lasting :=
  fun _ _ _ h hfades => ⟨hfades.path.trans h.1, h.2.1, fun hi => h.2.2 (hfades.intact hi)⟩

/-- An inspection of which no event was built is settled. -/
theorem settled_of_unbuilt (i : Inspection) (f : Fate) (h : Unbuilt path i f) :
    Inspection.Settled H cwd settings i f := by
  obtain ⟨rfl, rfl, hname⟩ := h
  intro hdetected
  refine iff_of_false ?_ fun hpublishable => ?_
  · rintro ⟨m, hm, -⟩
    cases hm
  · have hsome := hpublishable.1
    rw [hname hdetected.2] at hsome
    cases hsome

variable (H cwd settings) in
/-- What `build_event` leaves. -/
def built (path : Path) : Except Exn TransferEvent → Watched → Prop
  | .ok e, s => EventFor H cwd settings path (Publisher.message e none none) ∧
      Looking H cwd settings (At path {}) s
  | .error _, s => Looking H cwd settings (Unbuilt path) s

/-- An identifier, which cannot fail. -/
theorem safe_newUuid {α : Type} {post : Except Exn α → Watched → Prop} {f : String → Prog α}
    (hf : ∀ id v, isUuid id = true → Looking H cwd settings (At path {}) v →
      Safe (watcherHost H cwd settings).toEnvironment free post (f id) v)
    (h : Looking H cwd settings (At path {}) s) :
    Safe (watcherHost H cwd settings).toEnvironment free post (call .newUuid >>= f) s := by
  have hkeeps : Keeps (watcherHost H cwd settings).toEnvironment free Op.Aside
      (Looking H cwd settings (At path {})) := keeps_looking (lasting_at path {})
  refine hkeeps.other_bind (fun _ _ => trivial) (fun v id v' hv hr => ?_) (fun v e v' _ hr => ?_) h
  · exact hf id v' hr.1.1 (hkeeps.responds v .newUuid (.ok id) v' ⟨rfl, by simp⟩ hv hr)
  · cases hr.1.1

/-- The clock, with the path at hand. -/
theorem safe_utcnow {α : Type} {post : Except Exn α → Watched → Prop} {f : String → Prog α}
    (hf : ∀ time v, isOccurredAt time = true → Looking H cwd settings (At path {}) v →
      Safe (watcherHost H cwd settings).toEnvironment free post (f time) v)
    (h : Looking H cwd settings (At path {}) s) :
    Safe (watcherHost H cwd settings).toEnvironment free post (call .utcnow >>= f) s := by
  have hkeeps : Keeps (watcherHost H cwd settings).toEnvironment free Op.Aside
      (Looking H cwd settings (At path {})) := keeps_looking (lasting_at path {})
  refine hkeeps.other_bind (fun _ _ => trivial) (fun v time v' hv hr => ?_) (fun v e v' _ hr => ?_) h
  · exact hf time v' hr.1.1 (hkeeps.responds v .utcnow (.ok time) v' ⟨rfl, by simp⟩ hv hr)
  · cases hr.1.1

/-- A call that could not look at the file. -/
theorem unbuilt_of_failing {v v' : Watched} (h : Looking H cwd settings (At path {}) v)
    (hw : v'.1 = v.1.noteUnreadable .watcher) (hfs : v'.2 = v.2) :
    Looking H cwd settings (Unbuilt path) v' := by
  obtain ⟨i, is, f, fs, his, hfs', ⟨hi, hf⟩, hrest⟩ := h
  refine ⟨{ i with intact := false, sized := none }, is, f, fs, ?_, hfs.trans hfs', ⟨hi, hf, by simp⟩, hrest⟩
  rw [hw]
  exact inspections_inspect his _

/-- **`build_event`** fails if it cannot look at the file, or if the name is not UTF-8. -/
theorem safe_buildEvent (h : Looking H cwd settings (At path {}) s) :
    Safe (watcherHost H cwd settings).toEnvironment free (built H cwd settings path)
      (Watcher.buildEvent H cwd path settings) s := by
  have hkeeps : Keeps (watcherHost H cwd settings).toEnvironment free Op.Aside
      (Looking H cwd settings (At path {})) := keeps_looking (lasting_at path {})
  have hraise : ∀ {v e}, Looking H cwd settings (Unbuilt path) v →
      Safe (watcherHost H cwd settings).toEnvironment free (built H cwd settings path) (.raise e) v :=
    fun hv => (keeps_looking (lasting_unbuilt path)).raise (fun _ hu => hu) hv
  refine hkeeps.other_bind (fun _ _ => trivial) (fun v size v' hv hr => ?_) (fun v e v' hv hr => ?_) h
  · have hv' : Looking H cwd settings (At path {}) v' := by
      obtain ⟨i, is, f, fs, his, hfs, hi, hrest⟩ := hv
      refine ⟨{ i with sized := some size }, is, f, fs, ?_, hr.2.trans hfs, hi, hrest⟩
      rw [hr.1.2]
      exact inspections_inspect his _
    refine hkeeps.other_bind (fun _ _ => trivial) (fun u content u' hu hr => ?_)
      (fun u e u' hu hr => hraise (unbuilt_of_failing hu hr.1 hr.2)) hv'
    have hu' : Looking H cwd settings (At path {}) u' := by
      obtain ⟨i, is, f, fs, his, hfs, hi, hrest⟩ := hu
      refine ⟨{ i with finished := true, digested := some content }, is, f, fs, ?_, hr.2.trans hfs, hi, hrest⟩
      rw [hr.1.2]
      exact inspections_inspect his _
    dsimp only
    split
    · rename_i hname
      -- the name is not UTF-8, so no event can be built
      exact hraise (hu'.mono fun i f hi => ⟨hi.1, hi.2, fun _ => hname⟩)
    · rename_i name hname
      refine safe_newUuid (fun eventId v hid hv => ?_) hu'
      refine safe_newUuid (fun correlationId v hcorrelation hv => ?_) hv
      refine safe_utcnow (fun time v htime hv => ?_) hv
      -- the event is that of what was found
      let sighting : Sighting :=
        ⟨size, content, ⟨eventId, hid⟩, ⟨correlationId, hcorrelation⟩, ⟨time, htime⟩⟩
      have hmake := sighting.make_eq H cwd name settings
      have hevent : EventFor H cwd settings path
          (Publisher.message (sighting.event H cwd name settings) none none) :=
        ⟨name, sighting, hname, rfl⟩
      show Safe _ _ _ (Program.ofExcept _) _
      rw [hmake]
      exact hkeeps.ret (fun _ hw => ⟨hevent, hw⟩) hv
  · exact hraise (unbuilt_of_failing hv hr.1 hr.2)

/-! ## The loop -/

/-- **A path that was taken** is settled at the next loop head. -/
theorem safe_path_taken (h : Looking H cwd settings (At path {}) s) :
    Safe (watcherHost H cwd settings).toEnvironment free (ending (AllSettled H cwd settings))
      (Watcher.handlePath H cwd settings path) s := by
  refine (keeps_looking (lasting_at path {})).other_bind (fun _ _ => trivial) (fun v regular v' hv hr => ?_)
    (fun _ _ _ _ _ => safe_raise fun _ => trivial) h
  obtain ⟨i, is, f, fs, his, hfs, hi, hrest⟩ := hv
  have hinspections : v'.1.inspections = { i with regular := regular } :: is := by
    rw [hr.1.2]
    exact inspections_inspect his _
  have hlooking : Looking H cwd settings (fun i f => At path {} i f ∧ i.regular = regular) v' :=
    ⟨_, is, f, fs, hinspections, hr.2.trans hfs, ⟨hi, rfl⟩, hrest⟩
  cases regular with
  | false =>
      refine safe_settled (hlooking.allSettled fun i f hi hdetected => ?_)
      exact absurd hdetected.1 (by simp [hi.2])
  | true =>
      refine (safe_buildEvent (hlooking.mono fun i f hi => hi.1)).attempt_bind fun r u hu _ => ?_
      cases r with
      | ok e => exact settles_publishWithReconnect hu.1 hu.2
      | error exn => exact safe_settled (Looking.allSettled hu settled_of_unbuilt)

/-- What is known at the loop head and after the loop. -/
def watcherPosts (A : Watched → Prop) : Service.Posts Exn Unit Watched :=
  ⟨fun _ => A, fun _ _ _ => True, fun _ _ => True⟩

/-- What follows what the watcher did with a path, or while it was idle. -/
theorem safe_next {p : Prog Unit}
    (hp : Safe (watcherHost H cwd settings).toEnvironment free (ending (AllSettled H cwd settings)) p s) :
    Safe (watcherHost H cwd settings).toEnvironment free
      ((watcherPosts (AllSettled H cwd settings)).turn ()) (p >>= fun _ => .ret (.inl ())) s :=
  hp.bind (fun _ _ hv _ => keeps_allSettled.ret (fun _ hu => hu) hv) fun _ _ _ => trivial

/-- **The step lemma**: one turn of the loop. -/
theorem safe_turn (h : AllSettled H cwd settings s) :
    Safe (watcherHost H cwd settings).toEnvironment free
      ((watcherPosts (AllSettled H cwd settings)).turn ()) (Watcher.turn H cwd settings) s := by
  have hstop : Op.Aside .stopIsSet := ⟨rfl, by simp⟩
  refine keeps_allSettled.call_bind hstop (fun _ _ _ => trivial) (fun v stop v' _ _ hv => ?_) h
  cases stop with
  | true => exact keeps_watching.ret (fun _ _ => trivial) trivial
  | false =>
      refine keeps_allSettled.other_bind (fun _ _ => trivial) (fun u item u' hu hr => ?_)
        (fun _ _ _ _ _ => safe_raise fun _ => trivial) hv
      cases item with
      | none =>
          have hidle : (Watcher.serviceIdleConnection settings).Calls Op.Aside :=
            calls_serviceIdleConnection reconnects_aside ⟨rfl, by simp⟩
          have hu' : AllSettled H cwd settings u' := by
            rw [AllSettled, hr.1.2, hr.2]
            exact hu
          exact keeps_allSettled.bind hidle (fun _ _ _ => trivial)
            (fun _ _ hx => keeps_allSettled.ret (fun _ hy => hy) hx) hu'
      | some path =>
          obtain ⟨⟨rest, -, hw⟩, hfs⟩ := hr
          have hlooking : Looking H cwd settings (At path {}) u' :=
            ⟨{ path := path }, u.1.inspections, {}, u.2, by rw [hw], hfs, ⟨rfl, rfl⟩, hu⟩
          exact safe_next (safe_path_taken hlooking)

/-- **The watcher keeps every inspection settled** at the head of its loop. -/
theorem sound_watcher : (watcherService H cwd settings).Sound
    (watcherHost H cwd settings).toEnvironment free
    (watcherPosts (AllSettled H cwd settings)) where
  turn _ _ _ h := safe_turn h
  finish _ _ _ _ _ := (keeps_watching.of_calls (Program.calls_trivial _) trivial).mono fun _ _ _ => trivial

/-- The setup takes no path. -/
theorem safe_setup (h : s.Fresh) : Safe (watcherHost H cwd settings).toEnvironment free
    (watcherPosts (AllSettled H cwd settings)).setup (watcherService H cwd settings).setup s := by
  have hcalls : (watcherService H cwd settings).setup.Calls Op.Aside :=
    calls_watcher_setup reconnects_aside ⟨rfl, by simp⟩ ⟨rfl, by simp⟩ ⟨rfl, by simp⟩
      ⟨rfl, by simp⟩
  have hstart : AllSettled H cwd settings s := by
    rw [AllSettled, h.1, h.2]
    exact .nil
  refine (keeps_allSettled.of_calls hcalls hstart).mono fun r v hv => ?_
  cases r with
  | ok u => exact hv
  | error e => trivial

/-- **The run lemma**: at every loop head all paths taken so far are settled. -/
theorem settled_of_reachable {u : Unit}
    (h : (watcherHost H cwd settings).Reachable Watched.Fresh (s, .head u)) :
    AllSettled H cwd settings s := by
  have hsafe := Host.phaseSafe_of_reachable (Q := watcherPosts (AllSettled H cwd settings)) sound_watcher
    (fun _ hfresh => safe_setup hfresh) (fun _ _ _ _ hrestart => hrestart.elim) h
  exact (hsafe s .refl).2

/-- **When no detected file is dropped**: at every loop head, the files for which an event was confirmed, or
that are queued again, are those whose name is UTF-8 and one of whose two publications did not fail, or that
are queued again. -/
theorem never_drops_iff (H : Hashes) (cwd : String) (settings : Settings) {s : Watched}
    (h : (watcherHost H cwd settings).Reachable Watched.Fresh (s, .head ())) :
    NeverDrops H cwd settings s ↔ ∀ p ∈ s.1.inspections.zip s.2, p.1.Detected →
      p.1.Publishable p.2 ∨ p.1.path ∈ s.1.fileQueue := by
  have hsettled : ∀ p ∈ s.1.inspections.zip s.2, p.1.Settled H cwd settings p.2 := fun p hp =>
    List.forall₂_zip (settled_of_reachable h) hp
  constructor
  · intro hkeeps p hp hdetected
    exact (hkeeps p hp hdetected).imp_left (hsettled p hp hdetected).1
  · intro hgood p hp hdetected
    exact (hgood p hp hdetected).imp_left (hsettled p hp hdetected).2

/-! ## A file that is taken -/

section runs

/-- The world as the watcher sees it, without the record. -/
def besideWatcher (settings : Settings) : Environment calls Exn World where
  responds w op r w' := w.responds settings .watcher op r w'
  interfere := Beside settings

/-- A program that neither looks at a file nor publishes leaves the record as it is. -/
theorem executes_aside {α : Type} {p : Prog α} {r : Except Exn α} (hp : p.Calls Op.Aside)
    (h : Executes (besideWatcher settings) p w r w') (fs : List Fate) :
    Executes (watcherHost H cwd settings).toEnvironment p (w, fs) r (w', fs) := by
  induction h with
  | ret => exact .ret
  | raise => exact .raise
  | @call op _ v v' _ _ x hx _ ih =>
      have hresponds : (watcherHost H cwd settings).responds (v, fs) op x (v', fs) :=
        ⟨hx, (recordCall_of_aside hp.1 x fs).symm⟩
      exact .call x hresponds (ih (hp.2 x))
  | @move _ v v' _ _ hm _ ih =>
      have hmove : (watcherHost H cwd settings).interfere (v, fs) (v', fs) := ⟨hm, rfl⟩
      exact .move hmove (ih hp)

/-- A call that returns, followed by a program. -/
theorem executes_watcher_call {α : Type} (op : Op) {f : Res op → Prog α} {r : Except Exn α}
    {fs fs' : List Fate} (x : Res op) (h : w.normal settings .watcher op x w')
    (hfs : fs' = recordCall op (.ok x) fs)
    (hf : Executes (watcherHost H cwd settings).toEnvironment (f x) (w', fs') r s) :
    Executes (watcherHost H cwd settings).toEnvironment (call op >>= f) (w, fs) r s := by
  have hresponds : (watcherHost H cwd settings).responds (w, fs) op (.ok x) (w', fs') := ⟨h, hfs⟩
  exact .perform_bind hresponds hf

/-- The watcher is at its loop head, and a file was written and reported. -/
def World.reported (path : Path) (content : ByteArray) : World :=
  { ({} : World).watching with
    files := Function.update (fun _ => none) path (some content)
    fileQueue := [path] }

/-- The observer has not told of it yet. -/
def World.written (path : Path) (content : ByteArray) : World :=
  { ({} : World).watching with
    files := Function.update (fun _ => none) path (some content)
    notices := [⟨false, path, path⟩] }

/-- The file was taken from the queue, and is regular. -/
def World.checked (path : Path) (content : ByteArray) : World :=
  { World.reported path content with
    fileQueue := []
    inspections := [{ path := path, regular := true }] }

/-- Its content has been read. -/
def World.examined (path : Path) (content : ByteArray) : World :=
  { World.checked path content with inspections := [.examined path content] }

/-- The setup, and the file. -/
theorem runs_reported (path : Path) (content : ByteArray) :
    (watcherHost H cwd settings).Runs (({}, []), .setup (watcherService H cwd settings).setup)
      ((World.reported path content, []), .head ()) := by
  have hE : Attends settings (besideWatcher settings) := fun _ h => h
  have hcalls : (watcherService H cwd settings).setup.Calls Op.Aside :=
    calls_watcher_setup reconnects_aside ⟨rfl, by simp⟩ ⟨rfl, by simp⟩ ⟨rfl, by simp⟩
      ⟨rfl, by simp⟩
  have hsetup : Executes (watcherHost H cwd settings).toEnvironment (watcherService H cwd settings).setup
      ({}, []) (.ok ()) (({} : World).watching, []) := executes_aside hcalls hE.executes_setup []
  have hwrite : (watcherHost H cwd settings).interfere (({} : World).watching, [])
      (World.written path content, []) := ⟨.inl (.write path content), rfl⟩
  have hnotices : (World.written path content).notices = ⟨false, path, path⟩ :: [] := rfl
  have hclosed : (watcherHost H cwd settings).interfere (World.written path content, [])
      (World.reported path content, []) := ⟨.inl (.closed hnotices), rfl⟩
  exact (Host.runs_setup hsetup).trans (Host.runs_drifts (.head hwrite (.single hclosed)))

/-- One turn that takes the file. -/
theorem runs_taken {path : Path} {content : ByteArray} {s : Watched} {r : Except Exn TransferEvent}
    {s' : Watched} (hbuild : Executes (watcherHost H cwd settings).toEnvironment
      (Watcher.buildEvent H cwd path settings) (World.checked path content, [{}]) r s)
    (hafter : Executes (watcherHost H cwd settings).toEnvironment (match r with
      | .error _ => .ret ()
      | .ok e => Watcher.publishWithReconnect settings e) s (.ok ()) s') :
    (watcherHost H cwd settings).Reachable Watched.Fresh (s', .head ()) := by
  have hhandle : Executes (watcherHost H cwd settings).toEnvironment
      (Watcher.handlePath H cwd settings path)
      ({ World.checked path content with inspections := [{ path := path }] }, [{}]) (.ok ()) s' :=
    executes_watcher_call (.isfile path) true ⟨by simp [World.checked, World.reported], rfl⟩ rfl
      (hbuild.attempt.bind hafter)
  have hturn : Executes (watcherHost H cwd settings).toEnvironment (Watcher.turn H cwd settings)
      (World.reported path content, []) (.ok (.inl ())) s' :=
    executes_watcher_call .stopIsSet false ⟨rfl, rfl⟩ rfl
      (executes_watcher_call .fileQueueGet (some path) ⟨[], rfl, rfl⟩ rfl (hhandle.bind .ret))
  exact ⟨({}, []), ⟨rfl, rfl⟩, (runs_reported path content).trans (Host.runs_turn hturn)⟩

/-- The watcher gets as far as the name. -/
theorem executes_examine {path : Path} {content : ByteArray} {r : Except Exn TransferEvent}
    {f : Nat → ByteArray → Prog TransferEvent} {s : Watched}
    (hf : Executes (watcherHost H cwd settings).toEnvironment (f content.size content)
      (World.examined path content, [{}]) r s) :
    Executes (watcherHost H cwd settings).toEnvironment
      (call (.getsize path) >>= fun size => call (.readFile path) >>= f size)
      (World.checked path content, [{}]) r s := by
  have hfile : (World.checked path content).files path = some content := by
    simp [World.checked, World.reported]
  have hread : ((World.checked path content).noteSize .watcher content.size).normal settings .watcher
      (.readFile path) content (World.examined path content) := ⟨hfile, rfl⟩
  exact executes_watcher_call (.getsize path) content.size ⟨⟨content, hfile, rfl⟩, rfl⟩ rfl
    (executes_watcher_call (.readFile path) content hread rfl hf)

/-- **A name that is not UTF-8**: no event is built. -/
theorem runs_unnamed {path : Path} (content : ByteArray) (hname : String.fromUTF8? path = none) :
    (watcherHost H cwd settings).Reachable Watched.Fresh
      ((World.examined path content, [{}]), .head ()) := by
  have hbuild : Executes (watcherHost H cwd settings).toEnvironment (Watcher.buildEvent H cwd path settings)
      (World.checked path content, [{}]) (.error .unicodeEncode) (World.examined path content, [{}]) := by
    refine executes_examine ?_
    simp only [hname]
    exact .raise
  exact runs_taken hbuild .ret

variable (H cwd settings) in
/-- **A name that is UTF-8**: the event is published. -/
theorem runs_named {path : Path} {name : String} (sighting : Sighting)
    (hname : String.fromUTF8? path = some name) (hsize : sighting.size = sighting.content.size)
    (hids : sighting.correlationId.val ≠ sighting.eventId.val) :
    ∃ s, (watcherHost H cwd settings).Reachable Watched.Fresh (s, .head ()) ∧
      s.1.inspections = [.examined path sighting.content] ∧
      s.2 = [{ confirmed := [Publisher.message (sighting.event H cwd name settings) none none] }] := by
  -- the file is examined and the event built
  have hbuild : Executes (watcherHost H cwd settings).toEnvironment (Watcher.buildEvent H cwd path settings)
      (World.checked path sighting.content, [{}]) (.ok (sighting.event H cwd name settings))
      ({ World.examined path sighting.content with
        uuids := [sighting.correlationId.val, sighting.eventId.val] }, [{}]) := by
    refine executes_examine ?_
    simp only [hname]
    refine executes_watcher_call .newUuid sighting.eventId.val
      ⟨sighting.eventId.property, List.not_mem_nil, rfl⟩ rfl ?_
    have hfresh : sighting.correlationId.val ∉ [sighting.eventId.val] := by simpa using hids
    refine executes_watcher_call .newUuid sighting.correlationId.val
      ⟨sighting.correlationId.property, hfresh, rfl⟩ rfl ?_
    refine executes_watcher_call .utcnow sighting.occurredAt.val
      ⟨sighting.occurredAt.property, rfl⟩ rfl ?_
    rw [← hsize, sighting.make_eq]
    exact .ret
  have hsend : ({ World.examined path sighting.content with
      uuids := [sighting.correlationId.val, sighting.eventId.val] } : World).CanSend .watcher := by
    intro hconsumer
    cases hconsumer
  -- the broker confirms it
  have hresponds : (watcherHost H cwd settings).responds
      ({ World.examined path sighting.content with
        uuids := [sighting.correlationId.val, sighting.eventId.val] }, [{}])
      (.basicPublish settings.queueName
        (Publisher.message (sighting.event H cwd name settings) none none)) (.ok ())
      (_, [{ confirmed := [Publisher.message (sighting.event H cwd name settings) none none] }]) :=
    ⟨⟨hsend, rfl⟩, rfl⟩
  have hpublish : Executes (watcherHost H cwd settings).toEnvironment
      (Publisher.publishEvent settings (sighting.event H cwd name settings)) _ (.ok ()) _ :=
    .perform hresponds
  exact ⟨_, runs_taken hbuild (.bind (.attempt hpublish) .ret), rfl, rfl⟩

end runs

/-- A file whose event is published. -/
theorem never_drops_sample : ∃ s, (watcherHost hashlib "/" {}).Reachable Watched.Fresh (s, .head ()) ∧
    (∃ i ∈ s.1.inspections, i.Detected) ∧ NeverDrops hashlib "/" {} s := by
  obtain ⟨s, hs, his, hfs⟩ := runs_named hashlib "/" {} .sample
    (Json.fromUTF8?_toUTF8 "/watch/ORD-1.csv") rfl (by decide)
  refine ⟨s, hs, ?_, (never_drops_iff hashlib "/" {} hs).2 fun p hp _ => .inl ?_⟩
  · rw [his]
    exact ⟨_, List.mem_cons_self, rfl, rfl⟩
  · rw [his, hfs, List.zip_cons_cons, List.zip_nil_left, List.mem_singleton] at hp
    rw [hp]
    exact ⟨Option.isSome_iff_exists.2 ⟨_, Json.fromUTF8?_toUTF8 "/watch/ORD-1.csv"⟩, by decide⟩

/-- **A file whose name is not UTF-8 is dropped**: the watcher is back at its loop head, the queue
is empty, and nothing was published. -/
theorem unnamed_dropped :
    ∃ s, (watcherHost hashlib "/" {}).Reachable Watched.Fresh (s, .head ()) ∧
      ¬NeverDrops hashlib "/" {} s := by
  have hname : String.fromUTF8? ⟨#[0x2F, 0x77, 0x61, 0x74, 0x63, 0x68, 0x2F, 0xFF]⟩ = none := by
    decide +kernel
  refine ⟨_, runs_unnamed ⟨#[]⟩ hname, fun hkeeps => ?_⟩
  rcases hkeeps _ List.mem_cons_self ⟨rfl, rfl⟩ with ⟨m, hm, -⟩ | hqueued
  · cases hm
  · cases hqueued

end TransferWorker
