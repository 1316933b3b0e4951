import TransferWorker.System.Announcements
import TransferWorker.System.StoreSoundness
import TransferWorker.Worker.CsvEncoding

/-! # What an upload copies

The source file is read again and again: for the event, by the scan, and by every upload thread. Between
two of these moments it may be replaced.

* **`World.CheckedCopy`** — what is stored is what the event states and what the scan let pass.
* **`World.Faithful`** — the file that the next upload thread reads is the one that the event states
  and that the scan has read.
* **`checked_copy`** — in the runs in which the uploads read faithful files only, a key is inserted
  after a checked copy; `replaced_file_copied` is a run in which it is not. -/

namespace TransferWorker

open CallTrees World

section claim

variable (H : Hashes) (settings : Settings)

/-- The content has the size and the checksum that the event states. -/
def TransferEvent.States (e : TransferEvent) (content : ByteArray) : Prop :=
  (content.size : Int) = e.file.sizeBytes.val ∧ (H.sha256 content).val = e.file.checksumSha256.val

/-- **A checked copy**: the upload run of the `_handle` call in progress has stored, at every destination
of the event with this key, bytes of the size and the checksum that the event states, which the scan of
the same call has read and on which it finds nothing. -/
def World.CheckedCopy (w : World) (key : String) : Prop :=
  ∃ h event run, w.current = some h ∧
    TransferEvent.fromJsonBytes h.entry.message.body = .ok event ∧
    event.idempotencyKey.val = key ∧ h.run = some run ∧
    run.parts.map Part.destination = event.destinations.val ∧
    ∀ p ∈ run.parts, ∃ content, p.state = .stored content ∧ event.States H content ∧
      h.scanned = some content ∧ ScanReturns settings (fsencode event.source.path) content []

/-- In this step an upload of the active run reads its file. -/
def World.Reads (w w' : World) : Prop :=
  ∃ run run' p content, w.active = some run ∧ w'.active = some run' ∧ p ∈ run'.parts ∧
    p ∉ run.parts ∧ p.state = .fetched content

/-- **A faithful file**: if the file of the active run is there, it has the size and the checksum that
the event states, and it is, within the size limit, what the scan of the `_handle` call in progress
has read. -/
def World.Faithful (w : World) : Prop :=
  ∀ h event run content, w.current = some h →
    TransferEvent.fromJsonBytes h.entry.message.body = .ok event → w.active = some run →
    w.files run.path = some content →
    event.States H content ∧ h.scanned = some content ∧
      (content.size : Int) ≤ settings.maxCsvFileSizeBytes

/-- The uploads read faithful files only. -/
def faithfulReads : Condition calls Exn World Unit :=
  ⟨fun _ _ _ => True, fun w w' => w.Reads w' → w.Faithful H settings, fun _ _ => True⟩

/-- The runs of the consumer in which the uploads read faithful files only. -/
abbrev faithfulHost : Host calls Exn World Unit :=
  (consumerHost settings).under (faithfulReads H settings)

/-- **The contract**: a key is inserted after a checked copy. -/
def copyContract : Contract calls World where
  inv _ := True
  guar w op :=
    match op with
    | .markDone key _ => w.CheckedCopy H settings key
    | _ => True

end claim

variable {H : Hashes} {settings : Settings} {w w' : World} {event : TransferEvent} {raw : ByteArray}

/-! ## The `_handle` call in progress -/

/-- Something is known of the `_handle` call in progress. -/
def AboutCall (A : Handling → Prop) (w : World) : Prop := ∃ h, w.current = some h ∧ A h

/-- It handles this event. -/
def Handling.Handles (event : TransferEvent) (h : Handling) : Prop :=
  TransferEvent.fromJsonBytes h.entry.message.body = .ok event

/-- It handles this event, and its scan has read this content. -/
def Handling.HasScanned (event : TransferEvent) (raw : ByteArray) (h : Handling) : Prop :=
  h.Handles event ∧ h.scanned = some raw

/-- What is known of the call of `_handle` is stable. -/
theorem stable_aboutCall (A : Handling → Prop) :
    (faithfulHost H settings).toEnvironment.Stable (AboutCall A) := by
  intro v v' hv hm
  obtain ⟨h, hcurrent, hA⟩ := hv
  exact ⟨h, hm.1.frame.2.trans hcurrent, hA⟩

/-- Every call but an insertion meets the contract. -/
theorem guar_copy {op : Op} (hop : op.marks = false) : (copyContract H settings).guar w op := by
  cases op <;> trivial

/-- The calls that leave the `_handle` call in progress as it is. -/
theorem keeps_aboutCall (A : Handling → Prop) :
    Keeps (faithfulHost H settings).toEnvironment (copyContract H settings)
      (fun op : Op => op.changes .handling = false ∧ op.marks = false) (AboutCall A) where
  stable := stable_aboutCall A
  inv _ _ := trivial
  guar _ _ hop _ := guar_copy hop.2
  responds v op r v' hop hv hr := by
    obtain ⟨h, hcurrent, hA⟩ := hv
    have hsame : v'.current = v.current := frame_of_responds hop.1 hr.1
    exact ⟨h, hsame.trans hcurrent, hA⟩

/-- The calls without an obligation that leave its delivery as it is. -/
def Op.KeepsDelivery (op : Op) : Prop := op.endsCall = false ∧ op.marks = false

/-- The event of the call stays the same until the next delivery. -/
theorem keeps_event : Keeps (faithfulHost H settings).toEnvironment (copyContract H settings)
    Op.KeepsDelivery (AboutCall (Handling.Handles event)) where
  stable := stable_aboutCall _
  inv _ _ := trivial
  guar _ _ hop _ := guar_copy hop.2
  responds v op r v' hop hv hr := by
    obtain ⟨h, hcurrent, hA⟩ := hv
    obtain ⟨h', hcurrent', hentry⟩ := current_of_responds hop.1 hr.1 hcurrent
    refine ⟨h', hcurrent', ?_⟩
    rw [Handling.Handles, hentry]
    exact hA

/-- Where nothing is known, only an insertion is an obligation. -/
theorem keeps_unknown : Keeps (faithfulHost H settings).toEnvironment (copyContract H settings)
    (fun op : Op => op.marks = false) (fun _ => True) where
  stable _ _ _ _ := trivial
  inv _ _ := trivial
  guar _ _ hop _ := guar_copy hop
  responds _ _ _ _ _ _ _ := trivial

/-- The calls that give an event away mark nothing. -/
theorem givesAway_marks (tag : Nat) (event : TransferEvent) :
    GivesAway (fun op : Op => op.marks = false) tag event where
  publish _ _ _ _ _ := rfl
  ack := rfl

/-- A piece of the consumer that inserts a key after a checked copy only. -/
abbrev SafeCopy {α : Type} (H : Hashes) (settings : Settings) (p : Prog α) (w : World) : Prop :=
  Safe (faithfulHost H settings).toEnvironment (copyContract H settings) (fun _ _ => True) p w

/-- A piece that inserts no key. -/
theorem safeCopy_of_calls {α : Type} {p : Prog α} (hp : p.Calls fun op : Op => op.marks = false) :
    SafeCopy H settings p w :=
  keeps_unknown.of_calls hp trivial

/-! ## The scan -/

/-- After a scan without issues the call has read a content that the scan lets pass. -/
def AfterScan (event : TransferEvent) (r : Except Exn (List String)) (w : World) : Prop :=
  r = .ok [] → ∃ raw, scanBytes raw = .ok [] ∧ AboutCall (Handling.HasScanned event raw) w

/-- **The scan.** -/
theorem safe_scan (path : Path) (h : AboutCall (Handling.Handles event) w) :
    Safe (faithfulHost H settings).toEnvironment (copyContract H settings) (AfterScan event)
      (scanCsvFile path settings) w := by
  have hfailed : ∀ (v : World) (r : Except Exn (List String)), r ≠ .ok [] →
      Safe (faithfulHost H settings).toEnvironment (copyContract H settings) (AfterScan event)
        (Program.ofExcept r) v := by
    intro v r hr
    cases r with
    | ok issues => exact keeps_unknown.ret (fun _ _ hnone => absurd hnone hr) trivial
    | error e => exact keeps_unknown.raise (fun _ _ hnone => absurd hnone hr) trivial
  refine keeps_event.call_bind ⟨rfl, rfl⟩ (fun _ _ _ hnone => by cases hnone)
    (fun _ size v _ _ hv => ?_) h
  split
  · exact hfailed v (.ok _) (by simp)
  · refine keeps_event.other_bind (fun _ _ => guar_copy rfl) (fun u raw u' hu hr => ?_)
      (fun _ _ u' _ _ => hfailed u' (.error _) (by simp)) hv
    by_cases hscan : scanBytes raw = .ok []
    · obtain ⟨h, hcurrent, hevent⟩ := hu
      have hread : AboutCall (Handling.HasScanned event raw) u' := by
        refine ⟨{ h with scanned := some raw }, ?_, hevent, rfl⟩
        rw [hr.1.2, World.noteContent, World.note, hcurrent]
        rfl
      rw [hscan]
      exact (keeps_aboutCall _).ret (fun x hx _ => ⟨raw, hscan, hx⟩) hread
    · exact hfailed u' _ hscan

/-! ## The upload -/

/-- The upload has read this content, and perhaps stored it. -/
def PartState.Holds : PartState → ByteArray → Prop
  | .fetched content, c => c = content
  | .stored content, c => c = content
  | _, _ => False

variable (H settings) in
/-- The uploads of a run go to the destinations of the event, and hold what the event states and the
scan has read. -/
structure UploadRun.Copies (event : TransferEvent) (raw : ByteArray) (run : UploadRun) : Prop where
  /-- The destinations. -/
  destinations : run.parts.map Part.destination = event.destinations.val
  /-- The contents. -/
  holds : ∀ p ∈ run.parts, ∀ content, p.state.Holds content →
    content = raw ∧ event.States H raw ∧ (raw.size : Int) ≤ settings.maxCsvFileSizeBytes

variable (H settings) in
/-- The upload of the call in progress is under way. -/
def UnderWay (event : TransferEvent) (raw : ByteArray) (w : World) : Prop :=
  AboutCall (Handling.HasScanned event raw) w ∧
    ∃ run, w.active = some run ∧ run.event = event ∧ run.Copies H settings event raw

/-- **The step lemma**: an upload that makes progress reads a faithful file. -/
theorem UploadRun.Copies.progress {run run' : UploadRun} {w'' : World}
    (h : run.Copies H settings event raw) (hcall : AboutCall (Handling.HasScanned event raw) w)
    (hactive : w.active = some run)
    (hactive' : w'.active = some run') (hfaithful : w.Reads w' → w.Faithful H settings)
    (hp : run.Progress w run' w'') : run'.Copies H settings event raw := by
  refine ⟨hp.run_eq.2.2.2.trans h.destinations, ?_⟩
  cases hp with
  | @part before after p p' _ _ hparts hp =>
      -- the other parts are as they were
      have hold : ∀ q, q ∈ before ++ p' :: after → q = p' ∨ q ∈ run.parts := by
        intro q hq
        rw [hparts]
        simp only [List.mem_append, List.mem_cons] at hq ⊢
        tauto
      have hmem : p ∈ run.parts := by
        rw [hparts]
        simp
      intro q hq content hcontent
      rcases hold q hq with heq | hrun
      · rw [heq] at hq hcontent
        cases hp with
        | @fetch d read hfile =>
            by_cases hin : Part.mk d (.fetched read) ∈ run.parts
            · exact h.holds _ hin content hcontent
            · obtain ⟨call, hcurrent, hevent, hscanned⟩ := hcall
              have hreads : w.Reads w' := ⟨run, _, _, _, hactive, hactive', hq, hin, rfl⟩
              obtain ⟨hstates, hscan, hsize⟩ :=
                hfaithful hreads call event run _ hcurrent hevent hactive hfile
              obtain rfl := Option.some.inj (hscan.symm.trans hscanned)
              exact ⟨hcontent, hstates, hsize⟩
        | store => exact h.holds _ hmem content hcontent
        | fail => exact hcontent.elim
        | storeRaises => exact hcontent.elim
      · exact h.holds q hrun content hcontent

/-- An upload that is under way stays so. -/
theorem stable_underWay :
    (faithfulHost H settings).toEnvironment.Stable (UnderWay H settings event raw) := by
  intro v v' hv hm
  obtain ⟨hcall, run, hactive, hevent, hcopies⟩ := hv
  refine ⟨stable_aboutCall _ hcall hm, ?_⟩
  rcases hm.1.active with hsame | ⟨run₀, run', hrun₀, hrun', _, hp, -⟩
  · exact ⟨run, hsame.trans hactive, hevent, hcopies⟩
  · obtain rfl := Option.some.inj (hactive.symm.trans hrun₀)
    exact ⟨run', hrun', hp.run_eq.1.trans hevent, hcopies.progress hcall hactive hrun' hm.2 hp⟩

/-- If every result is a success, every upload has stored its content. -/
theorem stored_of_results {parts : List Part} {outcomes : List Outcome}
    (h : List.Forall₂ (fun p o => p.state.Reports o) parts outcomes)
    (hok : ∀ r ∈ List.zipWith uploadOne (parts.map Part.destination) outcomes, r.ok = true) :
    ∀ p ∈ parts, ∃ content, p.state = .stored content := by
  induction h with
  | nil => simp
  | @cons p o _ _ hreports _ ih =>
      intro q hq
      rcases List.mem_cons.1 hq with rfl | hq
      · have hreturned : o = .returned := (uploadOne_ok q.destination o).1 (hok _ List.mem_cons_self)
        subst hreturned
        cases hstate : q.state with
        | stored content => exact ⟨content, rfl⟩
        | failed cls =>
            rw [hstate] at hreports
            rcases hreports with hr | hr <;> cases hr
        | pending =>
            rw [hstate] at hreports
            cases hreports
        | fetched content =>
            rw [hstate] at hreports
            cases hreports
      · exact ih (fun r hr => hok r (List.mem_cons_of_mem _ hr)) q hq

variable (H settings) in
/-- The call handles the event, and its upload run has stored what its scan has read. -/
def Handling.HasCopied (event : TransferEvent) (raw : ByteArray) (h : Handling) : Prop :=
  h.HasScanned event raw ∧ ∃ run, h.run = some run ∧ run.Copies H settings event raw ∧
    ∀ p ∈ run.parts, ∃ content, p.state = .stored content

variable (H settings) in
/-- After an upload without failures. -/
def AfterCopy (event : TransferEvent) (raw : ByteArray) (r : Except Exn (List UploadResult))
    (w : World) : Prop :=
  ∀ results, r = .ok results → (results.filter fun r => !r.ok) = [] →
    AboutCall (Handling.HasCopied H settings event raw) w

/-- **`upload_all`** -/
theorem safe_uploadAll (path : Path) (h : AboutCall (Handling.HasScanned event raw) w) :
    Safe (faithfulHost H settings).toEnvironment (copyContract H settings)
      (AfterCopy H settings event raw) (uploadAll settings event path) w := by
  have hraise : ∀ v e, Safe (faithfulHost H settings).toEnvironment (copyContract H settings)
      (AfterCopy H settings event raw) (.raise e) v := fun v e =>
    keeps_unknown.raise (fun _ _ _ hr => by cases hr) trivial
  unfold uploadAll
  split
  · exact hraise w _
  · refine (keeps_aboutCall _).other_bind (fun _ _ => guar_copy rfl) (fun v x v' hv hr => ?_)
      (fun _ e v' _ _ => hraise v' e) h
    obtain rfl : v' = v.startUploads event path := hr.1
    -- at the start no part holds a content
    have hstart : UnderWay H settings event raw (v.startUploads event path) := by
      refine ⟨hv, _, rfl, rfl, by simp [Function.comp_def], fun p hp content hcontent => ?_⟩
      obtain ⟨d, -, rfl⟩ := List.mem_map.1 hp
      exact hcontent.elim
    refine Safe.perform_bind stable_underWay (fun _ _ => trivial) (fun _ _ => guar_copy rfl)
      (fun u outcomes u' hu hr => ?_) (fun _ e u' _ _ => hraise u' e) hstart
    obtain ⟨⟨hcall, hcurrent, hscanned⟩, run, hactive, hevent, hcopies⟩ := hu
    obtain ⟨-, run', hrun', houtcomes, rfl⟩ := hr.1
    obtain rfl := Option.some.inj (hactive.symm.trans hrun')
    by_cases hfailures : ((List.zipWith uploadOne event.destinations.val outcomes).filter
        fun r => !r.ok) = []
    · have hstored : ∀ p ∈ run.parts, ∃ content, p.state = .stored content := by
        refine stored_of_results houtcomes ?_
        rw [hcopies.destinations]
        intro r hr
        simpa using List.filter_eq_nil_iff.1 hfailures r hr
      -- the call has a run whose parts are copies of the checked content
      have hcopied : AboutCall (Handling.HasCopied H settings event raw)
          (u.endUploads { run with outcomes := some outcomes }) := by
        refine ⟨{ hcall with run := some { run with outcomes := some outcomes } }, ?_, hscanned, _, rfl,
          ⟨hcopies.destinations, hcopies.holds⟩, hstored⟩
        rw [World.endUploads, hcurrent]
        rfl
      exact (keeps_aboutCall _).ret (fun _ hx _ _ _ => hx) hcopied
    · refine keeps_unknown.ret (fun _ _ results hresults hnone => ?_) trivial
      rw [← Except.ok.inj hresults] at hnone
      exact absurd hnone hfailures

/-! ## `_handle` -/

/-- All that is known after an upload without failures makes a checked copy. -/
theorem checkedCopy_of_call (hscan : scanBytes raw = .ok [])
    (h : AboutCall (Handling.HasCopied H settings event raw) w) :
    w.CheckedCopy H settings event.idempotencyKey.val := by
  obtain ⟨call, hcurrent, ⟨hevent, hscanned⟩, run, hrun, hcopies, hstored⟩ := h
  refine ⟨call, event, run, hcurrent, hevent, rfl, hrun, hcopies.destinations, fun p hp => ?_⟩
  obtain ⟨content, hcontent⟩ := hstored p hp
  have hholds : p.state.Holds content := by
    rw [hcontent]
    rfl
  obtain ⟨rfl, hstates, hsize⟩ := hcopies.holds p hp content hholds
  exact ⟨content, hcontent, hstates, hscanned, scanReturns_of_scanBytes hsize hscan⟩

/-- `_handle` from the upload on. -/
theorem handleUpload_copy (tag : Nat) (hscan : scanBytes raw = .ok [])
    (h : AboutCall (Handling.HasScanned event raw) w) :
    SafeCopy H settings (Consumer.handleUpload settings tag event) w := by
  refine Safe.bind (safe_uploadAll _ h) (fun results v hv _ => ?_) fun _ _ _ => trivial
  dsimp only
  split
  · rename_i hfailures
    refine Safe.perform_bind (stable_aboutCall _) (fun _ _ => trivial)
      (fun u hu => checkedCopy_of_call hscan hu) (fun u _ u' _ _ => ?_) (fun u e u' _ _ => ?_)
      (hv results rfl hfailures)
    · exact safeCopy_of_calls (Program.calls_perform rfl)
    · exact keeps_unknown.raise (fun _ _ => trivial) trivial
  · exact safeCopy_of_calls (calls_handleFailure (givesAway_marks tag _) _)

/-- `_handle` from the check of the source file on. -/
theorem handleSource_copy (tag : Nat) (h : AboutCall (Handling.Handles event) w) :
    SafeCopy H settings (Consumer.handleSource settings tag event) w := by
  have hdead : ∀ (v : World) (reason : String),
      SafeCopy H settings (Consumer.deadLetter settings tag event reason) v := fun v reason =>
    safeCopy_of_calls (calls_deadLetter (givesAway_marks tag _) _)
  have hisfile : Op.KeepsDelivery (.isfile (fsencode event.source.path)) := ⟨rfl, rfl⟩
  refine keeps_event.call_bind hisfile (fun _ _ _ => trivial) (fun _ isfile v _ _ hv => ?_) h
  split
  · exact hdead v _
  · refine Safe.bind (safe_scan _ hv) (fun issues u hu _ => ?_) fun _ _ _ => trivial
    split
    · exact hdead u _
    · rename_i hissues
      obtain ⟨raw, hscan, hcall⟩ := hu (congrArg Except.ok (not_not.1 hissues))
      exact handleUpload_copy tag hscan hcall

/-- **`_handle`** inserts a key after a checked copy only. -/
theorem handle_copy (tag : Nat) (m : Message) (h : AboutCall (fun h => h.entry.message = m) w) :
    SafeCopy H settings (Consumer.handle settings tag m) w := by
  unfold Consumer.handle
  split
  · exact safeCopy_of_calls (Program.calls_bind (Program.calls_perform rfl) fun _ =>
      Program.calls_perform rfl)
  · rename_i event hm
    split
    · exact safeCopy_of_calls (calls_deadLetter (givesAway_marks tag _) _)
    · exact keeps_unknown.raise (fun _ _ => trivial) trivial
    · have hhandles : AboutCall (Handling.Handles event) w := by
        obtain ⟨call, hcurrent, rfl⟩ := h
        exact ⟨call, hcurrent, hm⟩
      have hdone : Op.KeepsDelivery (.isDone event.idempotencyKey) := ⟨rfl, rfl⟩
      refine keeps_event.call_bind hdone (fun _ _ _ => trivial) (fun _ done v _ _ hv => ?_) hhandles
      split
      · exact safeCopy_of_calls (Program.calls_perform rfl)
      · exact handleSource_copy tag hv

/-! ## The consumer -/

/-- The calls outside of `_handle` mark nothing. -/
theorem marks_of_isSession {op : Op} (h : op.isSession = true) : op.marks = false := by
  cases op <;> first | rfl | cases h

/-- **One turn of the loop.** -/
theorem turn_copy : SafeCopy H settings (Consumer.turn settings) w := by
  refine turn_rule (B := fun _ m => AboutCall fun h => h.entry.message = m) keeps_unknown
    (fun _ => marks_of_isSession) rfl (fun tag m => ?_) (fun _ _ _ _ => trivial)
    (fun v tag m v' _ hr => ?_) (fun tag m v hv => handle_copy tag m hv) trivial
  · exact (keeps_aboutCall _).mono fun op hop => by
      subst hop
      exact ⟨rfl, rfl⟩
  · obtain ⟨-, e, rest, -, rfl, hw⟩ := hr.1
    rw [hw]
    exact ⟨_, rfl, rfl⟩

/-- **A key is inserted after a checked copy**: in the runs of the consumer in which every upload thread
reads a faithful file, whatever the calls answer, and however writers, deliveries, faults, crashes and
restarts are interleaved. -/
theorem checked_copy (H : Hashes) (settings : Settings) {s : World × Phase calls Exn Unit}
    (hs : (faithfulHost H settings).Reachable (fun _ => True) s) {key correlationId : String}
    (hcall : s.2.Calling (.markDone key correlationId)) : s.1.CheckedCopy H settings key := by
  have hsafe := consumer_rule (H := faithfulHost H settings) (C := copyContract H settings)
    (A := fun _ => True) rfl keeps_unknown (fun _ => marks_of_isSession) (fun _ _ => turn_copy)
    (fun _ _ => trivial) (fun _ _ _ _ _ => trivial) hs
  obtain ⟨k, hk⟩ := hcall
  exact (hsafe.pending hk).1

/-! ## A file that is replaced -/

/-- A host that gives every normal answer, and lets the world move while no upload is under way. -/
structure Lenient (settings : Settings) (P : Host calls Exn World Unit) : Prop where
  /-- It runs the consumer. -/
  service : P.service = consumerService settings
  /-- The setup. -/
  setup : ∀ {w : World}, w.active = none →
    Executes P.toEnvironment (consumerService settings).setup w (.ok ()) (w.connected settings)
  /-- The answers. -/
  answers : ∀ {w op x w'}, w.normal settings .consumer op x w' → P.responds w op (.ok x) w'
  /-- The moves. -/
  moves : ∀ {w w'}, Move settings w w' → w.active = none → P.interfere w w'

/-- The host of the consumer is lenient. -/
theorem lenient_consumer (hd : settings.Distinct) : Lenient settings (consumerHost settings) where
  service := rfl
  setup _ := (consumerHost_admits hd).serves.capable.executes_setup
  answers h := h
  moves h _ := h

/-- No upload reads a file if none is under way. -/
theorem not_reads_of_idle (h : w.active = none) : ¬w.Reads w' := by
  rintro ⟨run, _, _, _, hactive, -⟩
  rw [h] at hactive
  cases hactive

/-- A program that starts no upload does in the faithful runs what it does in all runs. -/
theorem executes_faithful {α : Type} {p : Prog α} {r : Except Exn α}
    (hp : p.Calls fun op : Op => op.changes .uploads = false)
    (h : Executes (consumerHost settings).toEnvironment p w r w') (hidle : w.active = none) :
    Executes (faithfulHost H settings).toEnvironment p w r w' := by
  induction h with
  | ret => exact .ret
  | raise => exact .raise
  | call x hx _ ih =>
      have hsame := frame_of_responds hp.1 hx
      have hidle' := (congrArg Prod.fst hsame).trans hidle
      exact .call x ⟨hx, trivial⟩ (ih (hp.2 x) hidle')
  | move hm _ ih =>
      have hidle' := hm.active.resolve_right fun ⟨_, _, hrun, _⟩ => by
        rw [hidle] at hrun
        cases hrun
      exact .move ⟨hm, fun hreads => absurd hreads (not_reads_of_idle hidle)⟩
        (ih hp (hidle'.trans hidle))

/-- The calls outside of `_handle` leave the uploads. -/
theorem changes_of_isSession {op : Op} (h : op.isSession = true) : op.changes .uploads = false := by
  cases op <;> first | rfl | cases h

/-- So is the host in which the files do not change. -/
theorem lenient_faithful (hd : settings.Distinct) : Lenient settings (faithfulHost H settings) where
  service := rfl
  setup hidle := executes_faithful (calls_setup.mono fun _ => changes_of_isSession)
    ((lenient_consumer hd).setup hidle) hidle
  answers h := ⟨h, trivial⟩
  moves h hidle := ⟨h, fun hreads => absurd hreads (not_reads_of_idle hidle)⟩

/-- The only message is being handled, and its file was scanned. -/
def World.scannedOnly (settings : Settings) (event : TransferEvent) (content : ByteArray) : World :=
  ((((World.fresh content).connected settings).accept settings
    (Publisher.message event none none)).fetchNext settings ⟨Publisher.message event none none, []⟩
      []).scannedAs content

/-- The upload has stored a content everywhere, and `upload_all` has returned. -/
def World.uploadedAs (w : World) (run : UploadRun) : World :=
  w.endUploads { run with outcomes := some (run.parts.map fun _ => .returned) }

namespace Lenient

variable {P : Host calls Exn World Unit} {u v : World} {run : UploadRun} {content copied : ByteArray}

/-- `_handle` from the upload on, as far as the insertion. -/
theorem arrives_handleUpload (tag : Nat) (hP : Lenient settings P)
    (hconc : 1 ≤ settings.uploadMaxConcurrency)
    (hcopy : P.Drifts (v.startUploads event (fsencode event.source.path)) u)
    (hactive : u.active = some run)
    (hparts : run.parts = event.destinations.val.map (Part.mk · (.stored copied))) :
    Arrives P.toEnvironment (Consumer.handleUpload settings tag event) v
      (call (.markDone event.idempotencyKey event.correlationId) >>= fun _ => call (.basicAck tag))
      (u.uploadedAs run) := by
  have hstart : P.responds v (.uploadStart event (fsencode event.source.path)) (.ok ())
      (v.startUploads event (fsencode event.source.path)) := hP.answers rfl
  -- every function has returned, and is reported so
  have hreports : List.Forall₂ (fun p o => p.state.Reports o) run.parts
      (run.parts.map fun _ => Outcome.returned) := by
    rw [hparts, List.forall₂_map_right_iff, List.forall₂_map_left_iff, List.forall₂_map_right_iff]
    exact List.forall₂_same.2 fun _ _ => .inl rfl
  have hgather : P.responds u .uploadGather (.ok (run.parts.map fun _ => Outcome.returned))
      (u.uploadedAs run) := hP.answers ⟨hconc, run, hactive, hreports, rfl⟩
  have hresults : List.zipWith uploadOne event.destinations.val (run.parts.map fun _ => .returned) =
      event.destinations.val.map fun d => ⟨d.provider, true, none⟩ := by
    rw [hparts, List.map_map]
    exact UploadRun.zipWith_returned _
  have hupload : Executes P.toEnvironment (uploadAll settings event (fsencode event.source.path)) v
      (.ok (event.destinations.val.map fun d => ⟨d.provider, true, none⟩)) (u.uploadedAs run) := by
    unfold uploadAll
    rw [if_neg (by omega)]
    refine .perform_bind hstart (.drifts hcopy (.perform_bind hgather ?_))
    rw [hresults]
    exact .ret
  have hfailures : (event.destinations.val.map fun d => UploadResult.mk d.provider true none).filter
      (fun r => !r.ok) = [] := by simp
  refine .of_executes hupload ?_
  dsimp only
  rw [hfailures, if_pos rfl]
  exact .refl

/-- `_handle` as far as the insertion: the file is read by the scan, and may be replaced before the
uploads read it. -/
theorem arrives_handle (tag : Nat) (hP : Lenient settings P) {m : Message}
    (hm : TransferEvent.fromJsonBytes m.body = .ok event) (h : Uploadable settings w event content)
    (hdone : event.idempotencyKey.val ∉ w.doneKeys) (hwrite : P.Drifts (w.scannedAs content) v)
    (hcopy : P.Drifts (v.startUploads event (fsencode event.source.path)) u)
    (hactive : u.active = some run)
    (hparts : run.parts = event.destinations.val.map (Part.mk · (.stored copied))) :
    Arrives P.toEnvironment (Consumer.handle settings tag m) w
      (call (.markDone event.idempotencyKey event.correlationId) >>= fun _ => call (.basicAck tag))
      (u.uploadedAs run) := by
  have hisdone : P.responds w (.isDone event.idempotencyKey) (.ok false) w :=
    hP.answers ⟨by simpa using hdone, rfl⟩
  have hisfile : P.responds w (.isfile (fsencode event.source.path)) (.ok true) w :=
    hP.answers ⟨fun _ => by rw [h.file]; rfl, rfl⟩
  have hsize : P.responds w (.getsize (fsencode event.source.path)) (.ok content.size)
      (w.note fun h => { h with sized := some content.size }) :=
    hP.answers ⟨⟨content, h.file, rfl⟩, rfl⟩
  have hread : P.responds (w.note fun h => { h with sized := some content.size })
      (.readFile (fsencode event.source.path)) (.ok content) (w.scannedAs content) :=
    hP.answers ⟨h.file, rfl⟩
  have hscan : Executes P.toEnvironment (scanCsvFile (fsencode event.source.path) settings) w (.ok [])
      v := by
    refine .perform_bind hsize ?_
    rw [if_neg (not_lt.2 h.size)]
    refine .perform_bind hread ?_
    rw [h.scan]
    exact .drifts hwrite .ret
  simp only [Consumer.handle, hm, h.supported]
  exact .perform_bind hisdone (.perform_bind hisfile (.of_executes hscan
    (hP.arrives_handleUpload tag h.concurrency hcopy hactive hparts)))

/-- **The insertion of the only event**, whose file may be replaced between the scan and the upload. -/
theorem runs_insertion (hP : Lenient settings P) (hsupported : event.assertSupported = .ok ())
    (hsize : (content.size : Int) ≤ settings.maxCsvFileSizeBytes) (hscan : scanBytes content = .ok [])
    (hconc : 1 ≤ settings.uploadMaxConcurrency)
    (hwrite : P.Drifts (.scannedOnly settings event content) v)
    (hcopy : P.Drifts (v.startUploads event (fsencode event.source.path)) u)
    (hactive : u.active = some run)
    (hparts : run.parts = event.destinations.val.map (Part.mk · (.stored copied))) :
    ∃ φ, P.Reachable (fun _ => True) (u.uploadedAs run, φ) ∧
      φ.Calling (.markDone event.idempotencyKey event.correlationId) := by
  -- a new process, a message, its delivery, and the call of `_handle` up to the insertion
  let m := Publisher.message event none none
  let w₁ := (World.fresh content).connected settings
  let w₂ := w₁.accept settings m
  have hq : w₂.queue settings.queueName = ⟨m, []⟩ :: [] := by
    show (w₁.accept settings m).queue settings.queueName = _
    rw [accept_queue, connected_queue]
    rfl
  have hidle : w₂.Idle := (idle_connected rfl).accept m
  have hsetup : P.Runs (.fresh content, .setup P.service.setup) (w₁, .head ()) := by
    refine Host.runs_setup ?_
    rw [hP.service]
    exact hP.setup rfl
  have haccept : P.interfere w₁ w₂ := hP.moves (.accept m) rfl
  have hdeliver : P.interfere w₂ (w₂.deliver settings ⟨m, []⟩ []) :=
    hP.moves (.deliver hidle.channelOpen hidle.room hq) rfl
  have hconsume : P.responds (w₂.deliver settings ⟨m, []⟩ []) (.consume settings.queueName)
      (.ok (.delivery w₂.nextTag m)) (w₂.fetchNext settings ⟨m, []⟩ []) :=
    hP.answers ⟨hidle.channelOpen, ⟨m, []⟩, [], rfl, rfl, rfl⟩
  have hstop : P.responds (w₂.fetchNext settings ⟨m, []⟩ []) .stopIsSet (.ok false)
      (w₂.fetchNext settings ⟨m, []⟩ []) := hP.answers ⟨rfl, rfl⟩
  have hhandle := hP.arrives_handle (w := w₂.fetchNext settings ⟨m, []⟩ []) w₂.nextTag
    (Publisher.fromJsonBytes_message event none none) ⟨hsupported, rfl, hsize, hscan, hconc⟩
    List.not_mem_nil hwrite hcopy hactive hparts
  let rest : Prog (Unit ⊕ Unit) :=
    (call (.markDone event.idempotencyKey event.correlationId) >>= fun _ =>
      call (.basicAck w₂.nextTag)).attempt >>= fun _ => .ret (.inl ())
  have hturn : P.Runs (w₂.deliver settings ⟨m, []⟩ [], .head ())
      (u.uploadedAs run, .turn () rest) := by
    refine Host.runs_within ?_
    rw [hP.service]
    exact .perform_bind hconsume (.perform_bind hstop (.bind _ hhandle.attempt))
  have hrun := ((hsetup.tail (.interfere haccept)).tail (.interfere hdeliver)).trans hturn
  exact ⟨_, ⟨_, trivial, hrun⟩, _, rfl⟩

end Lenient

/-- Whether the file is faithful is a matter of the `_handle` call, the files and the path. -/
theorem World.Faithful.congr (h : w.Faithful H settings) (hcurrent : w'.current = w.current)
    (hfiles : w'.files = w.files)
    (hactive : ∀ run', w'.active = some run' → ∃ run, w.active = some run ∧ run.path = run'.path) :
    w'.Faithful H settings := by
  intro call event run' content hcall hevent hrun' hfile
  obtain ⟨run, hrun, hpath⟩ := hactive run' hrun'
  rw [hcurrent] at hcall
  rw [hfiles, ← hpath] at hfile
  exact h call event run content hcall hevent hrun hfile

/-- An upload reads a faithful file and stores what it has read. -/
theorem drifts_copy_faithful {run : UploadRun} {content : ByteArray} {d : Destination}
    (before after : List Part) (hconc : 1 ≤ settings.uploadMaxConcurrency)
    (h : w.Faithful H settings) (hactive : w.active = some run)
    (halive : run.alive = true) (hparts : run.parts = before ++ ⟨d, .pending⟩ :: after)
    (hfile : w.files run.path = some content) :
    (faithfulHost H settings).Drifts w { w.copyTo content [d] with
      active := some { run with parts := before ++ ⟨d, .stored content⟩ :: after } } := by
  let fetched : UploadRun := { run with parts := before ++ ⟨d, .fetched content⟩ :: after }
  obtain ⟨hread, hstore⟩ := moves_of_pending hconc hactive halive hparts hfile
  have hfaithful : World.Faithful H settings { w with active := some fetched } := by
    refine h.congr rfl rfl fun run' hrun' => ⟨run, hactive, ?_⟩
    obtain rfl : fetched = run' := Option.some.inj hrun'
    rfl
  exact .head ⟨hread, fun _ => h⟩ (.single ⟨hstore, fun _ => hfaithful⟩)

/-- The message that is handled decodes to the event it was made of. -/
theorem event_of_message {event event' : TransferEvent} {m : Message}
    (hm : m = Publisher.message event none none) (h : TransferEvent.fromJsonBytes m.body = .ok event') :
    event' = event := by
  rw [hm, Publisher.fromJsonBytes_message] at h
  exact (Except.ok.inj h).symm

/-- A file with an order line is copied to both destinations. -/
theorem checked_copy_sample : ∃ (s : World × Phase calls Exn Unit) (key correlationId : String),
    (faithfulHost hashlib {}).Reachable (fun _ => True) s ∧ s.2.Calling (.markDone key correlationId) ∧
      s.1.CheckedCopy hashlib {} key := by
  let w := (World.scannedOnly {} sightedEvent Sighting.sample.content).startUploads sightedEvent
    (fsencode sightedEvent.source.path)
  have hfaithful : w.Faithful hashlib {} := by
    intro call event' run content hcall hevent hrun hfile
    obtain rfl := Option.some.inj hcall
    obtain rfl := Option.some.inj hfile
    obtain rfl := event_of_message rfl hevent
    exact ⟨⟨rfl, rfl⟩, rfl, by decide⟩
  have hcopy := (drifts_copy_faithful [] _ (by decide) hfaithful rfl rfl rfl rfl).trans
    (drifts_copy_faithful [_] [] (by decide) (hfaithful.congr rfl rfl fun run' hrun' => by
      obtain rfl := Option.some.inj hrun'
      exact ⟨_, rfl, rfl⟩) rfl rfl rfl rfl)
  obtain ⟨φ, hreach, hcall⟩ := (lenient_faithful distinct_default).runs_insertion sightedEvent_supported
    (by decide) (by decide +kernel) (by decide) .refl hcopy rfl rfl
  exact ⟨_, _, _, hreach, hcall, checked_copy hashlib {} hreach hcall⟩

/-- **The file is replaced between the scan and the upload**: what is stored has not the size of the
event. -/
theorem replaced_file_copied : ∃ (s : World × Phase calls Exn Unit) (key correlationId : String),
    (consumerHost {}).Reachable (fun _ => True) s ∧ s.2.Calling (.markDone key correlationId) ∧
      ¬s.1.CheckedCopy hashlib {} key := by
  let path := fsencode sightedEvent.source.path
  let w := World.scannedOnly {} sightedEvent Sighting.sample.content
  have hwrite : Move {} w _ := .write path ⟨#[0x3D]⟩
  have hfile : Function.update w.files path (some ⟨#[0x3D]⟩) path = some ⟨#[0x3D]⟩ :=
    Function.update_self ..
  have hcapable := (consumerHost_admits distinct_default).serves.capable
  obtain ⟨φ, hreach, hcall⟩ := (lenient_consumer distinct_default).runs_insertion
    sightedEvent_supported (by decide) (by decide +kernel) (by decide) (.single hwrite)
    (hcapable.drifts_copy (by decide) rfl rfl hfile [] [] sightedEvent.destinations.val
      (List.append_nil _).symm) rfl (List.append_nil _)
  refine ⟨_, _, _, hreach, hcall, ?_⟩
  rintro ⟨call, event', run, hcurrent, hevent, -, hrun, -, hparts⟩
  obtain rfl := Option.some.inj hcurrent
  obtain rfl := event_of_message rfl hevent
  obtain rfl := Option.some.inj hrun
  obtain ⟨content, hstored, hstates, -⟩ := hparts _ List.mem_cons_self
  cases hstored
  exact absurd hstates.1 (by decide)

end TransferWorker
