import TransferWorker.CallTrees.Pool
import TransferWorker.System.WatcherRules
import TransferWorker.Worker.Building
import TransferWorker.Worker.Hashlib

/-! # The identity of events

The watcher and the consumer in one world, as far as it concerns the identifiers of events. The broker
may lose a message, deliver it at any time and as often as it likes; all other calls may answer what
they like. The world records where a publication stems from: the `build_event` calls are numbered, a
publication of the watcher stems from the last one, and one of the consumer from where the delivered
message stems from.

* **`Exchange`** — the world; `workerPool` runs both threads in it.
* **`Exchange.Coherent`** — the invariant: publications with the same origin are of the same journey,
  publications with different origins are of different events.
* **`identity_discipline_iff`** — in which runs every publication has an `eventId` of its own. -/

namespace TransferWorker

open CallTrees

/-- A publish operation. -/
structure PublishOp where
  /-- The thread that publishes. -/
  thread : Component
  /-- What it publishes. -/
  message : Message
  /-- The number of the `build_event` call that the message stems from. -/
  origin : Option Nat

namespace PublishOp

/-- The operation is one of the publisher for the event. -/
def Carries (p : PublishOp) (e : TransferEvent) : Prop :=
  ∃ expiration headers, p.message = Publisher.message e expiration headers

/-- The body of a publication decodes to the event that it carries. -/
theorem Carries.decodes {p : PublishOp} {e : TransferEvent} (h : p.Carries e) :
    TransferEvent.fromJsonBytes p.message.body = .ok e := by
  obtain ⟨expiration, headers, hm⟩ := h
  rw [hm, Publisher.fromJsonBytes_message]

/-- A publication carries one event. -/
theorem Carries.unique {p : PublishOp} {e e' : TransferEvent} (h : p.Carries e) (h' : p.Carries e') :
    e = e' := Except.ok.inj (h.decodes.symm.trans h'.decodes)

end PublishOp

/-- **The world**, with what happened so far. -/
structure Exchange where
  /-- The identifiers handed out. -/
  uuids : List String := []
  /-- How many `build_event` calls there were. -/
  builds : Nat := 0
  /-- The origin of the delivery that the consumer handles. -/
  handled : Option Nat := none
  /-- The publish operations, the last one first. -/
  published : List PublishOp := []

namespace Exchange

/-- Where a publication of a thread stems from. -/
def originOf (w : Exchange) : Component → Option Nat
  | .watcher => some w.builds
  | .consumer => w.handled

/-- A thread publishes a message. -/
def publish (w : Exchange) (t : Component) (m : Message) : Exchange :=
  { w with published := ⟨t, m, w.originOf t⟩ :: w.published }

/-- **The answers to the calls of a thread.** A `build_event` call starts with `getsize`; what is
delivered to the consumer is the body of a message that was published. -/
def responds (t : Component) (w : Exchange) : (op : Op) → Except Exn (Res op) → Exchange → Prop
  | .getsize _, _, w' => w' = if t = .watcher then { w with builds := w.builds + 1 } else w
  | .newUuid, .ok id, w' => isUuid id = true ∧ id ∉ w.uuids ∧ w' = { w with uuids := id :: w.uuids }
  | .basicPublish _ m, _, w' => w' = w.publish t m
  | .consume _, .ok (.delivery _ m), w' => t = .consumer ∧
      ∃ p ∈ w.published, m.body = p.message.body ∧ w' = { w with handled := p.origin }
  | .consume _, _, w' => t = .consumer ∧ w' = { w with handled := none }
  | _, .ok _, w' => w' = w
  | op, .error _, w' => op.mayRaise = true ∧ w' = w

end Exchange

/-- **The worker**: both threads; a restart of the process leaves the world as it is. -/
def workerPool (H : Hashes) (cwd : String) (settings : Settings) :
    Pool calls Exn Exchange fun _ : Component => Unit where
  service
    | .watcher => watcherService H cwd settings
    | .consumer => consumerService settings
  responds t w op r w' := w.responds t op r w'
  interfere _ _ := False
  restart w w' := w' = w

/-! ## What is claimed -/

/-- **The discipline**: every publication has an `eventId` of its own, and all that stem from one
`build_event` call have the same `correlationId` and the same `idempotencyKey`. -/
structure IdentityDiscipline (ps : List PublishOp) : Prop where
  /-- The events of two publications have different ids. -/
  fresh : ps.Pairwise fun p p' => ∀ e e', p.Carries e → p'.Carries e' → e.eventId ≠ e'.eventId
  /-- The events of one file have the same identity. -/
  stable : ∀ p ∈ ps, ∀ p' ∈ ps, p.origin = p'.origin → ∀ e e', p.Carries e → p'.Carries e' →
    e.correlationId = e'.correlationId ∧ e.idempotencyKey = e'.idempotencyKey

/-- **Nothing is published again**: the consumer has published nothing, and the watcher at most once
after each `build_event` call. -/
structure PublishedOnce (ps : List PublishOp) : Prop where
  /-- No retry and no dead letter. -/
  watcher : ∀ p ∈ ps, p.thread = .watcher
  /-- No second publication after a reconnect. -/
  origins : (ps.map PublishOp.origin).Nodup

namespace Exchange

variable {w w' : Exchange} {t : Component} {o : Option Nat} {e e' : TransferEvent}

/-! ## What a call changes -/

/-- A call that publishes nothing changes the world like this. -/
structure Quiet (t : Component) (w w' : Exchange) : Prop where
  published : w'.published = w.published
  builds : w.builds ≤ w'.builds
  uuids : ∀ id ∈ w.uuids, id ∈ w'.uuids
  handled : t = .watcher → w'.handled = w.handled
  same : t = .consumer → w'.builds = w.builds

/-- Nothing happens quietly. -/
theorem Quiet.refl (t : Component) (w : Exchange) : Quiet t w w :=
  ⟨rfl, Nat.le_refl _, fun _ h => h, fun _ => rfl, fun _ => rfl⟩

/-- A call is a publication, or leaves everything that was published as it is. -/
theorem quiet_or_publish {op : Op} {r : Except Exn (Res op)} (h : w.responds t op r w') :
    (∃ q m, op = .basicPublish q m ∧ w' = w.publish t m) ∨
      (∀ q m, op ≠ .basicPublish q m) ∧ Quiet t w w' := by
  cases op with
  | basicPublish q m => exact .inl ⟨q, m, rfl, h⟩
  | getsize path =>
      refine .inr ⟨nofun, ?_⟩
      obtain rfl : w' = _ := h
      cases t with
      | watcher => exact ⟨rfl, Nat.le_succ _, fun _ h => h, fun _ => rfl, nofun⟩
      | consumer => exact Quiet.refl _ _
  | newUuid =>
      refine .inr ⟨nofun, ?_⟩
      cases r with
      | ok id =>
          obtain ⟨-, -, rfl⟩ := h
          exact ⟨rfl, Nat.le_refl _, fun _ h => List.mem_cons_of_mem _ h, fun _ => rfl, fun _ => rfl⟩
      | error e => exact absurd h.1 nofun
  | consume q =>
      refine .inr ⟨nofun, ?_⟩
      rcases r with e | ⟨_ | _ | ⟨tag, m⟩⟩
      · obtain ⟨rfl, rfl⟩ := h
        exact ⟨rfl, Nat.le_refl _, fun _ h => h, nofun, fun _ => rfl⟩
      · obtain ⟨rfl, rfl⟩ := h
        exact ⟨rfl, Nat.le_refl _, fun _ h => h, nofun, fun _ => rfl⟩
      · obtain ⟨rfl, rfl⟩ := h
        exact ⟨rfl, Nat.le_refl _, fun _ h => h, nofun, fun _ => rfl⟩
      · obtain ⟨rfl, p, -, -, rfl⟩ := h
        exact ⟨rfl, Nat.le_refl _, fun _ h => h, nofun, fun _ => rfl⟩
  | _ =>
      refine .inr ⟨nofun, ?_⟩
      cases r with
      | ok x =>
          obtain rfl : w' = w := h
          exact Quiet.refl _ _
      | error e =>
          obtain rfl : w' = w := h.2
          exact Quiet.refl _ _

/-! ## The invariant -/

/-- An event may be published under an origin: the publications of this origin are of the same journey,
and all others are of other events. -/
structure Fits (w : Exchange) (o : Option Nat) (e : TransferEvent) : Prop where
  /-- The origin is one of the calls so far. -/
  origin : ∃ n, o = some n ∧ n ≤ w.builds
  /-- The id was handed out. -/
  id : e.eventId.val ∈ w.uuids
  /-- The same origin. -/
  same : ∀ p ∈ w.published, p.origin = o → ∀ e', p.Carries e' → e'.journey = e.journey
  /-- Other origins. -/
  apart : ∀ p ∈ w.published, p.origin ≠ o → ∀ e', p.Carries e' → e'.eventId ≠ e.eventId

/-- **The invariant.** -/
structure Coherent (w : Exchange) : Prop where
  /-- Every publication fits to the others. -/
  fits : ∀ p ∈ w.published, ∃ e, p.Carries e ∧ w.Fits p.origin e
  /-- The consumer only publishes what was published before. -/
  echoes : ∀ p ∈ w.published, p.thread = .consumer → ¬(w.published.map PublishOp.origin).Nodup

/-- A publication of the same journey has the origin that the consumer handles. -/
def Echo (w : Exchange) (e : TransferEvent) : Prop :=
  ∃ p ∈ w.published, p.origin = w.handled ∧ ∃ e', p.Carries e' ∧ e'.journey = e.journey

/-- The event id is part of the journey. -/
theorem eventId_of_journey (h : e.journey = e'.journey) : e.eventId = e'.eventId := by
  have hid : e.journey.eventId = e'.journey.eventId := by rw [h]
  exact hid

/-- A quiet call leaves an event fit for its origin. -/
theorem Quiet.fits (h : Quiet t w w') (hf : w.Fits o e) : w'.Fits o e := by
  obtain ⟨n, ho, hn⟩ := hf.origin
  refine ⟨⟨n, ho, hn.trans h.builds⟩, h.uuids _ hf.id, ?_, ?_⟩
  · rw [h.published]
    exact hf.same
  · rw [h.published]
    exact hf.apart

/-- A quiet call keeps the exchange coherent. -/
theorem Quiet.coherent (h : Quiet t w w') (hw : w.Coherent) : w'.Coherent := by
  refine ⟨?_, ?_⟩
  · rw [h.published]
    intro p hp
    obtain ⟨e, he, hf⟩ := hw.fits p hp
    exact ⟨e, he, h.fits hf⟩
  · rw [h.published]
    exact hw.echoes

/-- What fits to an event that is published fits to the one that the consumer handles. -/
theorem Echo.fits (h : w.Echo e) (hw : w.Coherent) : w.Fits w.handled e := by
  obtain ⟨p, hp, ho, e₀, he₀, hjourney⟩ := h
  obtain ⟨e₁, he₁, hf⟩ := hw.fits p hp
  cases he₀.unique he₁
  have hid := eventId_of_journey hjourney
  rw [ho] at hf
  refine ⟨hf.origin, hid ▸ hf.id, fun p' hp' ho' e' he' => ?_, fun p' hp' ho' e' he' => ?_⟩
  · rw [hf.same p' hp' ho' e' he', hjourney]
  · rw [← hid]
    exact hf.apart p' hp' ho' e' he'

/-- Two events that fit, one to be published and one that still fits afterwards. -/
theorem Fits.publish (h : w.Fits o e) (hnew : w.originOf t = o → e'.journey = e.journey)
    (hother : w.originOf t ≠ o → e'.eventId ≠ e.eventId) (expiration : Option String)
    (headers : Option (List (String × String))) :
    (w.publish t (Publisher.message e' expiration headers)).Fits o e := by
  have hunique : ∀ e'', (PublishOp.mk t (Publisher.message e' expiration headers) (w.originOf t)).Carries e'' →
      e' = e'' := fun e'' he'' => PublishOp.Carries.unique ⟨expiration, headers, rfl⟩ he''
  refine ⟨h.origin, h.id, fun p hp ho e'' he'' => ?_, fun p hp ho e'' he'' => ?_⟩
  · rcases List.mem_cons.1 hp with rfl | hp
    · rw [← hunique e'' he'']
      exact hnew ho
    · exact h.same p hp ho e'' he''
  · rcases List.mem_cons.1 hp with rfl | hp
    · rw [← hunique e'' he'']
      exact hother ho
    · exact h.apart p hp ho e'' he''

/-- **A publication of an event that fits keeps the invariant.** -/
theorem Coherent.publish (hw : w.Coherent) (hf : w.Fits (w.originOf t) e)
    (hecho : t = .consumer → ∃ p ∈ w.published, p.origin = w.handled) (expiration : Option String)
    (headers : Option (List (String × String))) :
    (w.publish t (Publisher.message e expiration headers)).Coherent := by
  refine ⟨fun p hp => ?_, fun p hp ht => ?_⟩
  · rcases List.mem_cons.1 hp with rfl | hp
    · exact ⟨e, ⟨expiration, headers, rfl⟩, hf.publish (fun _ => rfl) (fun h => absurd rfl h) _ _⟩
    · obtain ⟨e', he', hf'⟩ := hw.fits p hp
      refine ⟨e', he', hf'.publish (fun ho => ?_) (fun ho => ?_) _ _⟩
      · exact (hf.same p hp ho.symm e' he').symm
      · exact (hf.apart p hp (Ne.symm ho) e' he').symm
  · show ¬(w.originOf t :: w.published.map PublishOp.origin).Nodup
    rw [List.nodup_cons, not_and_or, not_not]
    rcases List.mem_cons.1 hp with rfl | hp
    · obtain ⟨p', hp', ho⟩ := hecho ht
      obtain rfl : t = .consumer := ht
      exact .inl (List.mem_map.2 ⟨p', hp', ho⟩)
    · exact .inr (hw.echoes p hp ht)

end Exchange

/-! ## The threads -/

open Exchange

/-- What a thread may publish. -/
def Exchange.MayPublish (w : Exchange) : Component → Message → Prop
  | .watcher, m => ∃ e expiration headers,
      m = Publisher.message e expiration headers ∧ w.Fits (some w.builds) e
  | .consumer, m => ∃ e expiration headers, m = Publisher.message e expiration headers ∧ w.Echo e

/-- The contract of a thread. -/
def identityContract (t : Component) : Contract calls Exchange where
  inv := Coherent
  guar w op := ∀ q m, op = .basicPublish q m → w.MayPublish t m

section threads

variable {H : Hashes} {cwd : String} {settings : Settings} {w w' : Exchange} {t : Component}
  {e : TransferEvent}

/-- The calls that publish nothing. -/
def Op.silent (op : Op) : Prop := ∀ q m, op ≠ .basicPublish q m

/-- The environment of a thread. -/
abbrev exchangeView (H : Hashes) (cwd : String) (settings : Settings) (t : Component) :
    Environment calls Exn Exchange :=
  (workerPool H cwd settings).view identityContract t

/-- A call that meets its guarantee keeps the invariant. -/
theorem Exchange.Coherent.responds (hw : w.Coherent) {op : Op} {r : Except Exn (Res op)}
    (hguar : (identityContract t).guar w op) (hr : w.responds t op r w') : w'.Coherent := by
  rcases quiet_or_publish hr with ⟨q, m, rfl, rfl⟩ | ⟨-, hquiet⟩
  · have hmay := hguar q m rfl
    cases t with
    | watcher =>
        obtain ⟨e, expiration, headers, rfl, hf⟩ := hmay
        exact hw.publish (t := .watcher) hf (fun h => by cases h) expiration headers
    | consumer =>
        obtain ⟨e, expiration, headers, rfl, hecho⟩ := hmay
        have hf := hecho.fits hw
        obtain ⟨p, hp, ho, -⟩ := hecho
        exact hw.publish (t := .consumer) hf (fun _ => ⟨p, hp, ho⟩) expiration headers
  · exact hquiet.coherent hw

/-- The calls of the other threads keep the exchange coherent. -/
theorem stable_coherent (t : Component) : (exchangeView H cwd settings t).Stable Coherent := by
  rintro w w' hw (⟨⟨⟩⟩ | ⟨t', -, op, r, hguar, hr⟩)
  exact hw.responds hguar hr

/-- The calls that publish nothing keep the invariant. -/
theorem keeps_coherent (t : Component) :
    Keeps (exchangeView H cwd settings t) (identityContract t) Op.silent Coherent where
  stable := stable_coherent t
  inv _ hw := hw
  guar _ _ hop _ q m hpublish := absurd hpublish (hop q m)
  responds _ _ _ _ hop hw hr := hw.responds (fun q m hpublish => absurd hpublish (hop q m)) hr

/-- An assertion that holds along with the invariant, while a thread makes calls of its own choice. -/
theorem keeps_of (t : Component) {P : Op → Prop} {A : Exchange → Prop}
    (hguar : ∀ w op, P op → w.Coherent → A w → (identityContract t).guar w op)
    (hown : ∀ w op r w', P op → w.Coherent → A w → w.responds t op r w' → A w')
    (hothers : ∀ w t' op r w', t' ≠ t → w.Coherent → A w → (identityContract t').guar w op →
      w.responds t' op r w' → A w') :
    Keeps (exchangeView H cwd settings t) (identityContract t) P fun w => w.Coherent ∧ A w where
  stable := by
    rintro w w' ⟨hw, hA⟩ (⟨⟨⟩⟩ | ⟨t', ht, op, r, hg, hr⟩)
    exact ⟨hw.responds hg hr, hothers w t' op r w' ht hw hA hg hr⟩
  inv _ hw := hw.1
  guar w op hop hw := hguar w op hop hw.1 hw.2
  responds w op r w' hop hw hr :=
    ⟨hw.1.responds (hguar w op hop hw.1 hw.2) hr, hown w op r w' hop hw.1 hw.2 hr⟩

/-! ### The consumer -/

/-- The calls of the consumer while it handles an event. -/
def ConsumerCall (e : TransferEvent) (op : Op) : Prop :=
  (∀ q, op ≠ .consume q) ∧ ∀ q m, op = .basicPublish q m →
    ∃ e' expiration headers, m = Publisher.message e' expiration headers ∧ e'.journey = e.journey

/-- The calls by which the consumer gives an event away are among those it may make. -/
theorem handlesEvent_consumerCall (tag : Nat) (e : TransferEvent) :
    HandlesEvent (ConsumerCall e) tag e where
  publish q e' expiration headers hjourney := by
    refine ⟨nofun, fun q' m hm => ?_⟩
    cases hm
    exact ⟨e', expiration, headers, rfl, hjourney⟩
  ack := ⟨nofun, nofun⟩
  other op hop hsilent := by
    refine ⟨fun q hq => ?_, fun q m hm => absurd hm (hsilent q m)⟩
    rw [hq] at hop
    cases hop

/-- What was published is not forgotten. -/
theorem Exchange.Echo.of_published (h : w.Echo e) (hhandled : w'.handled = w.handled)
    (hpublished : ∀ p ∈ w.published, p ∈ w'.published) : w'.Echo e := by
  obtain ⟨p, hp, ho, he⟩ := h
  exact ⟨p, hpublished p hp, by rw [hhandled]; exact ho, he⟩

/-- A publication of whatever message leaves the echo of an event. -/
theorem Exchange.Echo.publish (h : w.Echo e) (t : Component) (m : Message) : (w.publish t m).Echo e :=
  h.of_published rfl fun _ hp => List.mem_cons_of_mem _ hp

/-- So does a quiet call that handles nothing new. -/
theorem Exchange.Echo.quiet (h : w.Echo e) (hquiet : Exchange.Quiet t w w') (hhandled : w'.handled = w.handled) :
    w'.Echo e :=
  h.of_published hhandled fun p hp => by rw [hquiet.published]; exact hp

/-- Only the iterator changes what the consumer handles. -/
theorem handled_of_responds {op : Op} {r : Except Exn (Res op)} (h : w.responds .consumer op r w')
    (hop : ∀ q, op ≠ .consume q) : w'.handled = w.handled := by
  cases op with
  | basicPublish q m =>
      obtain rfl : w' = _ := h
      rfl
  | getsize path =>
      obtain rfl : w' = _ := h
      rfl
  | newUuid =>
      cases r with
      | ok id =>
          obtain ⟨-, -, rfl⟩ := h
          rfl
      | error e => exact absurd h.1 nofun
  | consume q => exact absurd rfl (hop q)
  | _ =>
      cases r with
      | ok x =>
          obtain rfl : w' = w := h
          rfl
      | error e =>
          obtain rfl : w' = w := h.2
          rfl

/-- While the consumer handles an event, what it may publish stays published. -/
theorem keeps_echo (e : TransferEvent) :
    Keeps (exchangeView H cwd settings .consumer) (identityContract .consumer) (ConsumerCall e)
      fun w => w.Coherent ∧ w.Echo e := by
  refine keeps_of .consumer (fun w op hop _ hecho q m hm => ?_) (fun w op r w' hop _ hecho hr => ?_)
    (fun w t' op r w' ht _ hecho _ hr => ?_)
  · obtain ⟨e', expiration, headers, rfl, hjourney⟩ := hop.2 q m hm
    obtain ⟨p, hp, ho, e₀, he₀, heq⟩ := hecho
    exact ⟨e', expiration, headers, rfl, p, hp, ho, e₀, he₀, heq.trans hjourney.symm⟩
  · have hhandled := handled_of_responds hr hop.1
    rcases quiet_or_publish hr with ⟨q, m, rfl, rfl⟩ | ⟨-, hquiet⟩
    · exact hecho.publish _ _
    · exact hecho.quiet hquiet hhandled
  · obtain rfl : t' = .watcher := by
      cases t' with
      | watcher => rfl
      | consumer => exact absurd rfl ht
    rcases quiet_or_publish hr with ⟨q, m, rfl, rfl⟩ | ⟨-, hquiet⟩
    · exact hecho.publish _ _
    · exact hecho.quiet hquiet (hquiet.handled rfl)

/-- What was delivered is the body of an event that the consumer may publish. -/
def Delivered (m : Message) (w : Exchange) : Prop :=
  w.Coherent ∧ ∃ e, TransferEvent.fromJsonBytes m.body = .ok e ∧ w.Echo e

/-- While the consumer asks whether it should stop, the message at hand stays delivered. -/
theorem keeps_delivered (m : Message) :
    Keeps (exchangeView H cwd settings .consumer) (identityContract .consumer) (· = .stopIsSet)
      (Delivered m) where
  stable := by
    rintro w w' ⟨hw, e, hm, hecho⟩ hmove
    have hkept := (keeps_echo e).stable ⟨hw, hecho⟩ hmove
    exact ⟨hkept.1, e, hm, hkept.2⟩
  inv _ hw := hw.1
  guar w op hop _ := by
    rw [hop]
    exact nofun
  responds w op r w' hop hw hr := by
    obtain ⟨hw, e, hm, hecho⟩ := hw
    have hcall : ConsumerCall e op := by
      rw [hop]
      exact ⟨nofun, nofun⟩
    have hkept := (keeps_echo e).responds w op r w' hcall ⟨hw, hecho⟩ hr
    exact ⟨hkept.1, e, hm, hkept.2⟩

/-- One turn of the consumer. -/
theorem consumer_turn (h : w.Coherent) :
    Safe (exchangeView H cwd settings .consumer) (identityContract .consumer) (fun _ => Coherent)
      (Consumer.turn settings) w := by
  refine turn_rule (B := fun _ => Delivered) (keeps_coherent .consumer) (fun op hop q m hm => ?_) nofun
    (fun _ => keeps_delivered) (fun _ _ _ hv => hv.1) (fun v tag m v' hv hr => ?_)
    (fun tag m v hv => ?_) h
  · rw [hm] at hop
    cases hop
  · -- the body is one that was published
    have hsilent : Op.silent (.consume settings.queueName) := nofun
    have hcoherent : v'.Coherent := (keeps_coherent .consumer).responds v _ _ v' hsilent hv hr
    obtain ⟨-, p, hp, hbody, rfl⟩ := hr
    obtain ⟨e, he, -⟩ := hv.fits p hp
    exact ⟨hcoherent, e, by rw [hbody]; exact he.decodes, p, hp, rfl, e, he, rfl⟩
  · obtain ⟨hcoherent, e, hm, hecho⟩ := hv
    exact ((keeps_echo e).of_calls (calls_handle_event (handlesEvent_consumerCall tag e) hm)
      ⟨hcoherent, hecho⟩).mono fun _ _ hu => hu.1

/-! ### The watcher -/

/-- A change to which only publications were added that repeat others. -/
structure Exchange.Echoes (w w' : Exchange) : Prop where
  builds : w'.builds = w.builds
  uuids : ∀ id ∈ w.uuids, id ∈ w'.uuids
  published : ∀ p ∈ w'.published, ∃ p₀ ∈ w.published, p₀.origin = p.origin ∧
    ∀ e, p.Carries e → ∃ e₀, p₀.Carries e₀ ∧ e₀.journey = e.journey

/-- A quiet call that builds nothing echoes at most. -/
theorem Exchange.Quiet.echoes (h : Exchange.Quiet t w w') (hbuilds : w'.builds = w.builds) : Echoes w w' := by
  refine ⟨hbuilds, h.uuids, fun p hp => ?_⟩
  rw [h.published] at hp
  exact ⟨p, hp, rfl, fun e he => ⟨e, he, rfl⟩⟩

/-- What the consumer does to the watcher's world. -/
theorem echoes_of_consumer {op : Op} {r : Except Exn (Res op)}
    (hguar : (identityContract .consumer).guar w op) (hr : w.responds .consumer op r w') :
    Echoes w w' := by
  rcases quiet_or_publish hr with ⟨q, m, rfl, rfl⟩ | ⟨-, hquiet⟩
  · obtain ⟨e, expiration, headers, rfl, p, hp, ho, e₀, he₀, hjourney⟩ := hguar q m rfl
    refine ⟨rfl, fun _ h => h, fun p' hp' => ?_⟩
    rcases List.mem_cons.1 hp' with rfl | hp'
    · refine ⟨p, hp, ho, fun e' he' => ⟨e₀, he₀, ?_⟩⟩
      have heq : e = e' := PublishOp.Carries.unique ⟨expiration, headers, rfl⟩ he'
      rw [hjourney, heq]
    · exact ⟨p', hp', rfl, fun e' he' => ⟨e', he', rfl⟩⟩
  · exact hquiet.echoes (hquiet.same rfl)

/-- The calls of the watcher that neither publish nor start a `build_event` call. -/
def Op.plain (op : Op) : Prop := op.silent ∧ ∀ path, op ≠ .getsize path

/-- A plain call echoes at most. -/
theorem echoes_of_plain {op : Op} {r : Except Exn (Res op)} (hop : op.plain)
    (hr : w.responds t op r w') : Echoes w w' := by
  rcases quiet_or_publish hr with ⟨q, m, rfl, rfl⟩ | ⟨-, hquiet⟩
  · exact absurd rfl (hop.1 q m)
  · refine hquiet.echoes ?_
    -- only the watcher's look at a file's size starts a build
    cases op with
    | getsize path => exact absurd rfl (hop.2 path)
    | basicPublish q m => exact absurd rfl (hop.1 q m)
    | newUuid =>
        cases r with
        | ok id =>
            obtain ⟨-, -, rfl⟩ := hr
            rfl
        | error e => exact absurd hr.1 nofun
    | consume q =>
        rcases r with e | ⟨_ | _ | ⟨tag, m⟩⟩
        · obtain ⟨-, rfl⟩ := hr
          rfl
        · obtain ⟨-, rfl⟩ := hr
          rfl
        · obtain ⟨-, rfl⟩ := hr
          rfl
        · obtain ⟨-, p, -, -, rfl⟩ := hr
          rfl
    | _ =>
        cases r with
        | ok x =>
            obtain rfl : w' = w := hr
            rfl
        | error e =>
            obtain rfl : w' = w := hr.2
            rfl

/-- An assertion that such changes keep. -/
theorem keeps_plain (H : Hashes) (cwd : String) (settings : Settings) {A : Exchange → Prop}
    (hA : ∀ w w', Echoes w w' → A w → A w') :
    Keeps (exchangeView H cwd settings .watcher) (identityContract .watcher) Op.plain
      fun w => w.Coherent ∧ A w := by
  refine keeps_of .watcher (fun w op hop _ _ q m hm => absurd hm (hop.1 q m))
    (fun w op r w' hop _ hw hr => hA w w' (echoes_of_plain hop hr) hw)
    (fun w t' op r w' ht _ hw hguar hr => ?_)
  cases t' with
  | watcher => exact absurd rfl ht
  | consumer => exact hA w w' (echoes_of_consumer hguar hr) hw

/-- Nothing stems from the last `build_event` call yet. -/
def Exchange.Unpublished (w : Exchange) : Prop := ∀ p ∈ w.published, p.origin ≠ some w.builds

/-- The same, and no publication has this `eventId`. -/
def Exchange.Reserved (w : Exchange) (id : String) : Prop :=
  w.Unpublished ∧ id ∈ w.uuids ∧ ∀ p ∈ w.published, ∀ e, p.Carries e → e.eventId.val ≠ id

/-- An id that is not published stays so while others echo. -/
theorem Exchange.Unpublished.echoes (h : w.Unpublished) (hw : Echoes w w') : w'.Unpublished := by
  intro p hp
  obtain ⟨p₀, hp₀, ho, -⟩ := hw.published p hp
  rw [← ho, hw.builds]
  exact h p₀ hp₀

/-- A reserved id stays reserved. -/
theorem Exchange.Reserved.echoes {id : String} (h : w.Reserved id) (hw : Echoes w w') :
    w'.Reserved id := by
  refine ⟨h.1.echoes hw, hw.uuids id h.2.1, fun p hp e he => ?_⟩
  obtain ⟨p₀, hp₀, -, hcarries⟩ := hw.published p hp
  obtain ⟨e₀, he₀, hjourney⟩ := hcarries e he
  rw [← eventId_of_journey hjourney]
  exact h.2.2 p₀ hp₀ e₀ he₀

/-- The event with the reserved id may be published. -/
theorem Exchange.Reserved.fits {id : String} (h : w.Reserved id) (hid : e.eventId.val = id) :
    w.Fits (some w.builds) e := by
  refine ⟨⟨w.builds, rfl, Nat.le_refl _⟩, hid ▸ h.2.1, fun p hp ho => absurd ho (h.1 p hp), ?_⟩
  intro p hp _ e' he' heq
  refine h.2.2 p hp e' he' ?_
  rw [heq, hid]

/-- The event that is being built stays fit. -/
theorem Exchange.Fits.echoes (h : w.Fits (some w.builds) e) (hw : Echoes w w') :
    w'.Fits (some w'.builds) e := by
  rw [hw.builds]
  obtain ⟨n, ho, hn⟩ := h.origin
  refine ⟨⟨n, ho, by rw [hw.builds]; exact hn⟩, hw.uuids _ h.id, fun p hp hor e' he' => ?_,
    fun p hp hor e' he' => ?_⟩
  · obtain ⟨p₀, hp₀, ho₀, hcarries⟩ := hw.published p hp
    obtain ⟨e₀, he₀, hjourney⟩ := hcarries e' he'
    rw [← hjourney]
    exact h.same p₀ hp₀ (ho₀.trans hor) e₀ he₀
  · obtain ⟨p₀, hp₀, ho₀, hcarries⟩ := hw.published p hp
    obtain ⟨e₀, he₀, hjourney⟩ := hcarries e' he'
    rw [← eventId_of_journey hjourney]
    exact h.apart p₀ hp₀ (ho₀ ▸ hor) e₀ he₀

/-- The calls of the watcher while it publishes an event. -/
def WatcherCall (e : TransferEvent) (op : Op) : Prop :=
  op.plain ∨ ∃ q expiration headers, op = .basicPublish q (Publisher.message e expiration headers)

/-- While the watcher publishes an event, the event may be published. -/
theorem keeps_fits (e : TransferEvent) :
    Keeps (exchangeView H cwd settings .watcher) (identityContract .watcher) (WatcherCall e)
      fun w => w.Coherent ∧ w.Fits (some w.builds) e := by
  refine keeps_of .watcher (fun w op hop _ hf q m hm => ?_) (fun w op r w' hop _ hf hr => ?_)
    (fun w t' op r w' ht _ hf hguar hr => ?_)
  · rcases hop with hop | ⟨q', expiration, headers, rfl⟩
    · exact absurd hm (hop.1 q m)
    · cases hm
      exact ⟨e, expiration, headers, rfl, hf⟩
  · rcases hop with hop | ⟨q, expiration, headers, rfl⟩
    · exact hf.echoes (echoes_of_plain hop hr)
    · obtain rfl : w' = _ := hr
      exact hf.publish (t := .watcher) (fun _ => rfl) (fun h => absurd rfl h) expiration headers
  · cases t' with
    | watcher => exact absurd rfl ht
    | consumer => exact hf.echoes (echoes_of_consumer hguar hr)

/-- What is known when `build_event` has ended: a normal return is an event that may be published. -/
def Built (r : Except Exn (Except Exn TransferEvent)) (w : Exchange) : Prop :=
  w.Coherent ∧ ∀ e, r = .ok (.ok e) → w.Fits (some w.builds) e

/-- The start of a `build_event` call. -/
theorem Exchange.Coherent.startBuild (hw : w.Coherent) :
    Exchange.Coherent { w with builds := w.builds + 1 } ∧
      Exchange.Unpublished { w with builds := w.builds + 1 } := by
  have hquiet : Exchange.Quiet .watcher w { w with builds := w.builds + 1 } :=
    ⟨rfl, Nat.le_succ _, fun _ h => h, fun _ => rfl, nofun⟩
  refine ⟨hquiet.coherent hw, fun p hp ho => ?_⟩
  obtain ⟨e, -, hf⟩ := hw.fits p hp
  obtain ⟨n, hn, hle⟩ := hf.origin
  rw [hn, Option.some.injEq] at ho
  exact absurd ho (Nat.ne_of_lt (Nat.lt_succ_of_le hle))

/-- A new identifier is one that no publication has. -/
theorem Exchange.Unpublished.newUuid (hu : w.Unpublished) (hw : w.Coherent) {id : String}
    (hid : id ∉ w.uuids) : Exchange.Reserved { w with uuids := id :: w.uuids } id := by
  refine ⟨hu, List.mem_cons_self, fun p hp e he heq => hid ?_⟩
  obtain ⟨e', he', hf⟩ := hw.fits p hp
  rw [← heq, he.unique he']
  exact hf.id

/-- **`build_event`** makes an event with an id of its own. -/
theorem buildEvent_fits (path : Path) (h : w.Coherent) :
    Safe (exchangeView H cwd settings .watcher) (identityContract .watcher) (fun r => Built (.ok r))
      (Watcher.buildEvent H cwd path settings) w := by
  have hraised : ∀ (e : Exn) v, v.Coherent → Built (.ok (.error e)) v :=
    fun e v hv => ⟨hv, fun e' he => by cases he⟩
  unfold Watcher.buildEvent
  refine (keeps_coherent .watcher).other_bind (fun _ _ => nofun) (fun v n v' hv hr => ?_)
    (fun v e v' hv hr => ?_) h
  · obtain rfl : v' = { v with builds := v.builds + 1 } := hr
    -- nothing of this build is published yet
    have hunpublished := keeps_plain H cwd settings fun v v' hw (h : v.Unpublished) => h.echoes hw
    refine hunpublished.call_bind ⟨nofun, nofun⟩ (fun e u hu => hraised e u hu.1)
      (fun _ content u _ _ hu => ?_) hv.startBuild
    cases hname : String.fromUTF8? path with
    | none => exact hunpublished.raise (fun u hu => hraised _ u hu.1) hu
    | some name =>
        dsimp only
        refine hunpublished.other_bind (fun _ _ => nofun) (fun u id u' hu hr => ?_)
          (fun u e u' hu hr => ?_) hu
        · -- the id is reserved until the event is published
          obtain ⟨-, hid, rfl⟩ := hr
          have hreserved := keeps_plain H cwd settings fun v v' hw (h : v.Reserved id) => h.echoes hw
          have hquiet : Exchange.Quiet .watcher u { u with uuids := id :: u.uuids } :=
            ⟨rfl, Nat.le_refl _, fun _ h => List.mem_cons_of_mem _ h, fun _ => rfl, nofun⟩
          refine hreserved.call_bind ⟨nofun, nofun⟩ (fun e u hu => hraised e u hu.1)
            (fun _ correlationId u _ _ hu => ?_) ⟨hquiet.coherent hu.1, hu.2.newUuid hu.1 hid⟩
          refine hreserved.call_bind ⟨nofun, nofun⟩ (fun e u hu => hraised e u hu.1)
            (fun _ occurredAt u _ _ hu => ?_) hu
          cases hmake : TransferEvent.make "1.0" id correlationId
              (computeIdempotencyKey H settings.correlationSecret name n (H.sha256 content)) occurredAt
              ⟨.sftp, name⟩ (basename name) n (H.sha256 content) (guessContentType name)
              ⟨Watcher.destinations settings (relpath cwd name settings.watchDir),
                Watcher.destinations_ne_nil _ _⟩ with
          | error e => exact hreserved.raise (fun u hu => hraised e u hu.1) hu
          | ok e =>
              refine hreserved.ret (fun u hu => ⟨hu.1, fun e' he' => ?_⟩) hu
              cases he'
              exact hu.2.fits (TransferEvent.valid_of_make hmake).1
        · exact absurd hr.1 nofun
  · obtain rfl : v' = { v with builds := v.builds + 1 } := hr
    exact (keeps_coherent .watcher).raise (fun u hu => hraised e u hu) hv.startBuild.1

/-- A reconnect is silent. -/
theorem reconnects_silent : Reconnects Op.silent := ⟨nofun, nofun, nofun, fun _ _ => nofun, nofun⟩

/-- A reconnect is among the calls that the watcher makes with an event in hand. -/
theorem reconnects_watcherCall (e : TransferEvent) : Reconnects (WatcherCall e) :=
  ⟨.inl ⟨nofun, nofun⟩, .inl ⟨nofun, nofun⟩, .inl ⟨nofun, nofun⟩, fun _ _ => .inl ⟨nofun, nofun⟩,
    .inl ⟨nofun, nofun⟩⟩

/-- What the watcher does with a path. -/
theorem handlePath_coherent (path : Path) (h : w.Coherent) :
    Safe (exchangeView H cwd settings .watcher) (identityContract .watcher) (fun _ => Coherent)
      (Watcher.handlePath H cwd settings path) w := by
  have hcoherent : ∀ t, Keeps (exchangeView H cwd settings t) (identityContract t) Op.silent Coherent :=
    keeps_coherent
  refine (hcoherent .watcher).call_bind nofun (fun _ _ hu => hu) (fun _ regular u _ _ hu => ?_) h
  split
  · exact (hcoherent .watcher).ret (fun _ hv => hv) hu
  · have hbuild : Safe (exchangeView H cwd settings .watcher) (identityContract .watcher) Built
        (Watcher.buildEvent H cwd path settings).attempt u := Safe.attempt (buildEvent_fits path hu)
    refine Safe.bind hbuild (fun r v hv _ => ?_) fun _ _ hv => hv.1
    cases r with
    | error e => exact (hcoherent .watcher).ret (fun _ hv => hv) hv.1
    | ok e =>
        have hcalls : (Watcher.publishWithReconnect settings e).Calls (WatcherCall e) :=
          calls_publishWithReconnect (reconnects_watcherCall e) (.inr ⟨_, _, _, rfl⟩)
        exact ((keeps_fits e).of_calls hcalls ⟨hv.1, hv.2 e rfl⟩).mono fun _ _ hu => hu.1

/-- One turn of the watcher. -/
theorem watcher_turn (h : w.Coherent) :
    Safe (exchangeView H cwd settings .watcher) (identityContract .watcher) (fun _ => Coherent)
      (Watcher.turn H cwd settings) w := by
  have hcoherent : ∀ t, Keeps (exchangeView H cwd settings t) (identityContract t) Op.silent Coherent :=
    keeps_coherent
  refine (hcoherent .watcher).call_bind nofun (fun _ _ hu => hu) (fun _ stop u _ _ hu => ?_) h
  split
  · exact (hcoherent .watcher).ret (fun _ hv => hv) hu
  · refine (hcoherent .watcher).call_bind nofun (fun _ _ hu => hu) (fun _ item v _ _ hv => ?_) hu
    have hend : ∀ x, x.Coherent → Safe (exchangeView H cwd settings .watcher) (identityContract .watcher)
        (fun _ => Coherent) (.ret (.inl ()) : Prog (Unit ⊕ Unit)) x :=
      fun x hx => (hcoherent .watcher).ret (fun _ hv => hv) hx
    cases item with
    | none =>
        exact Safe.bind ((hcoherent .watcher).of_calls
          (calls_serviceIdleConnection reconnects_silent nofun) hv)
          (fun _ x hx _ => hend x hx) fun _ _ hx => hx
    | some path => exact Safe.bind (handlePath_coherent path hv) (fun _ x hx _ => hend x hx) fun _ _ hx => hx

end threads

/-! ## Every run -/

/-- **In every run the world is coherent.** -/
theorem coherent_of_reachable {H : Hashes} {cwd : String} {settings : Settings}
    {s : (workerPool H cwd settings).State}
    (hs : (workerPool H cwd settings).Reachable (· = {}) s) : s.1.Coherent := by
  -- neither setup publishes anything
  have hsetup : ∀ w : Exchange, w.Coherent → ∀ t : Component,
      Safe (exchangeView H cwd settings t) (identityContract t) (allPosts Coherent).setup
        ((workerPool H cwd settings).service t).setup w := by
    intro w hw t
    cases t with
    | watcher =>
        have hcalls : (watcherService H cwd settings).setup.Calls Op.silent :=
          calls_watcher_setup reconnects_silent nofun nofun nofun nofun
        exact ((keeps_coherent .watcher).of_calls hcalls hw).mono fun r _ hv => by
          cases r <;> exact hv
    | consumer =>
        exact safe_consumer_setup (keeps_coherent .consumer) (fun _ hv => hv)
          (fun op hop q m hm => by rw [hm] at hop; cases hop) hw
  -- the turns keep it, each for its thread
  have hsound : ∀ t : Component, ((workerPool H cwd settings).service t).Sound
      (exchangeView H cwd settings t) (identityContract t) (allPosts Coherent) := by
    intro t
    cases t with
    | watcher =>
        refine ⟨fun _ w _ hw => (watcher_turn hw).mono fun r _ hv => ?_, fun s r w _ hw => ?_⟩
        · rcases r with _ | ⟨_ | _⟩ <;> exact hv
        · exact (keeps_coherent .watcher).of_calls (calls_watcher_finish nofun nofun nofun nofun s r) hw
    | consumer =>
        refine sound_consumer (keeps_coherent .consumer) (fun op hop q m hm => by rw [hm] at hop; cases hop)
          fun w hw => ?_
        exact (consumer_turn hw).mono fun r _ hv => by rcases r with _ | ⟨_ | _⟩ <;> exact hv
  have hempty : Coherent {} := ⟨by simp, by simp⟩
  have hsafe := Pool.phaseSafe_of_reachable hsound
    (fun w (hw : w = {}) => hsetup w (by rw [hw]; exact hempty))
    (fun w φ w' hφ hw => hsetup w' (by
      obtain rfl : w' = w := hw
      exact (hφ .watcher).inv)) hs
  exact (hsafe .watcher).inv

namespace Exchange

variable {w : Exchange}

/-- Publications that stem from one `build_event` call have the same identity. -/
theorem Coherent.stable (hw : w.Coherent) : ∀ p ∈ w.published, ∀ p' ∈ w.published, p.origin = p'.origin →
    ∀ e e', p.Carries e → p'.Carries e' →
      e.correlationId = e'.correlationId ∧ e.idempotencyKey = e'.idempotencyKey := by
  intro p hp p' hp' ho e e' he he'
  obtain ⟨e₀, he₀, hf⟩ := hw.fits p' hp'
  have hjourney : e.journey = e'.journey := by
    rw [← he₀.unique he']
    exact hf.same p hp ho e he
  have hcorrelation : e.journey.correlationId = e'.journey.correlationId := by rw [hjourney]
  have hkey : e.journey.idempotencyKey = e'.journey.idempotencyKey := by rw [hjourney]
  exact ⟨hcorrelation, hkey⟩

/-- **All ids are different exactly if nothing is published again.** -/
theorem Coherent.discipline_iff (hw : w.Coherent) :
    IdentityDiscipline w.published ↔ PublishedOnce w.published := by
  constructor
  · intro h
    have hnodup : (w.published.map PublishOp.origin).Nodup := by
      rw [List.Nodup, List.pairwise_map]
      refine h.fresh.imp_of_mem fun {p p'} hp hp' hne ho => ?_
      obtain ⟨e, he, hf⟩ := hw.fits p hp
      obtain ⟨e', he', -⟩ := hw.fits p' hp'
      exact hne e e' he he' (eventId_of_journey (hf.same p' hp' ho.symm e' he')).symm
    refine ⟨fun p hp => ?_, hnodup⟩
    cases ht : p.thread with
    | watcher => rfl
    | consumer => exact absurd hnodup (hw.echoes p hp ht)
  · intro h
    refine ⟨?_, hw.stable⟩
    have horigins := h.origins
    rw [List.Nodup, List.pairwise_map] at horigins
    refine horigins.imp_of_mem fun {p p'} hp hp' ho e e' he he' => ?_
    obtain ⟨e₀, he₀, hf⟩ := hw.fits p' hp'
    rw [← he₀.unique he']
    exact hf.apart p hp ho e he

end Exchange

/-- **The identity of events**: in every run all publications that stem from one `build_event` call have
the same `correlationId` and `idempotencyKey`, and each publication has an `eventId` of its own exactly
if nothing was published again. -/
theorem identity_discipline_iff {H : Hashes} {cwd : String} {settings : Settings}
    {s : (workerPool H cwd settings).State} (hs : (workerPool H cwd settings).Reachable (· = {}) s) :
    (∀ p ∈ s.1.published, ∃ e, p.Carries e) ∧
      (∀ p ∈ s.1.published, ∀ p' ∈ s.1.published, p.origin = p'.origin →
        ∀ e e', p.Carries e → p'.Carries e' →
          e.correlationId = e'.correlationId ∧ e.idempotencyKey = e'.idempotencyKey) ∧
      (IdentityDiscipline s.1.published ↔ PublishedOnce s.1.published) := by
  have hw := coherent_of_reachable hs
  refine ⟨fun p hp => ?_, hw.stable, hw.discipline_iff⟩
  obtain ⟨e, he, -⟩ := hw.fits p hp
  exact ⟨e, he⟩

/-! ## Runs of the watcher -/

section runs

variable {H : Hashes} {cwd : String} {settings : Settings} {w w' : Exchange}

/-- The world of the watcher while the consumer rests. -/
abbrev watcherWorld (H : Hashes) (cwd : String) (settings : Settings) : Environment calls Exn Exchange :=
  (workerPool H cwd settings).alone .watcher

/-- The world after a `build_event` call. -/
def Exchange.sighted (w : Exchange) (s : Sighting) : Exchange :=
  { w with builds := w.builds + 1, uuids := s.correlationId.val :: s.eventId.val :: w.uuids }

/-- A call that leaves the world as it is. -/
theorem executes_still (op : Op) (a : Res op) (ha : w.responds .watcher op (.ok a) w) :
    Executes (watcherWorld H cwd settings) (call op) w (.ok a) w := .perform ha

/-- A call that leaves the world as it is, followed by a program. -/
theorem executes_call {op : Op} {α : Type} {f : Res op → Prog α} {r : Except Exn α} (a : Res op)
    (ha : w.responds .watcher op (.ok a) w) (hf : Executes (watcherWorld H cwd settings) (f a) w r w') :
    Executes (watcherWorld H cwd settings) (call op >>= f) w r w' := .perform_bind ha hf

/-- The connection is set up. -/
theorem executes_connectAndSetup :
    Executes (watcherWorld H cwd settings) (connectAndSetup settings) w (.ok ()) w := by
  refine executes_call () rfl (executes_call () rfl ?_)
  have htopology : Executes (watcherWorld H cwd settings) (declareTopology settings) w (.ok ()) w :=
    executes_call () rfl (executes_call () rfl (executes_still (.queueDeclare _ _) () rfl))
  exact htopology.bind (executes_still .confirmDelivery () rfl)

/-- The watcher gets to its loop. -/
theorem executes_watcher_setup :
    Executes (watcherWorld H cwd settings) (watcherService H cwd settings).setup w (.ok ()) w := by
  refine .bind executes_connectAndSetup ?_
  exact executes_call () rfl (executes_call () rfl (executes_call () rfl (executes_still .observerStart () rfl)))

/-- `build_event` makes the event of a sighting whose ids are new. -/
theorem executes_buildEvent {path : Path} {name : String} (s : Sighting)
    (hname : String.fromUTF8? path = some name) (hid : s.eventId.val ∉ w.uuids)
    (hcorrelation : s.correlationId.val ∉ s.eventId.val :: w.uuids) :
    Executes (watcherWorld H cwd settings) (Watcher.buildEvent H cwd path settings) w
      (.ok (s.event H cwd name settings)) (w.sighted s) := by
  refine .of_makes (makes_buildEvent_iff.2 ⟨name, s, hname, rfl, rfl⟩) ?_
  have hsize : w.responds .watcher (.getsize path) (.ok s.size) { w with builds := w.builds + 1 } := rfl
  have hread : ∀ v : Exchange, v.responds .watcher (.readFile path) (.ok s.content) v := fun _ => rfl
  have htime : ∀ v : Exchange, v.responds .watcher .utcnow (.ok s.occurredAt.val) v := fun _ => rfl
  refine .cons hsize (.cons (hread _) ?_)
  refine .cons ⟨s.eventId.property, hid, rfl⟩ ?_
  exact .cons ⟨s.correlationId.property, hcorrelation, rfl⟩ (.cons (htime _) .nil)

/-- The watcher takes a path and publishes its event. -/
theorem executes_turn {path : Path} {e : TransferEvent}
    (hbuild : Executes (watcherWorld H cwd settings) (Watcher.buildEvent H cwd path settings) w (.ok e) w')
    {w'' : Exchange} (hpublish : Executes (watcherWorld H cwd settings)
      (Watcher.publishWithReconnect settings e) w' (.ok ()) w'') :
    Executes (watcherWorld H cwd settings) ((watcherService H cwd settings).turn ()) w (.ok (.inl ())) w'' := by
  have hhandle : Executes (watcherWorld H cwd settings) (Watcher.handlePath H cwd settings path) w
      (.ok ()) w'' := executes_call true rfl (.bind hbuild.attempt hpublish)
  exact executes_call false rfl (executes_call (some path) rfl (hhandle.bind .ret))

/-- The first publication succeeds. -/
theorem executes_publish (e : TransferEvent) :
    Executes (watcherWorld H cwd settings) (Watcher.publishWithReconnect settings e) w (.ok ())
      (w.publish .watcher (Publisher.message e none none)) :=
  .bind (.attempt (.call (.ok ()) rfl .ret)) .ret

/-- The first publication fails, and the second one, after the reconnect, succeeds. -/
theorem executes_publish_again (e : TransferEvent) :
    Executes (watcherWorld H cwd settings) (Watcher.publishWithReconnect settings e) w (.ok ())
      ((w.publish .watcher (Publisher.message e none none)).publish .watcher
        (Publisher.message e none none)) := by
  have hreconnect : ∀ v : Exchange,
      Executes (watcherWorld H cwd settings) (Watcher.reconnect settings) v (.ok ()) v := fun v =>
    (executes_still .close () rfl).attempt.bind executes_connectAndSetup
  refine .bind (.attempt (.call (.error (.amqp "AMQPConnectionError")) rfl .raise)) ?_
  exact (hreconnect _).bind (.bind (.attempt (.call (.ok ()) rfl .ret)) .ret)

/-- The watcher gets to the head of its loop. -/
theorem reachable_watcher_head : ∃ s, (workerPool H cwd settings).Reachable (· = {}) s ∧ s.1 = {} ∧
    s.2 .watcher = .head () := by
  refine ⟨_, ⟨_, rfl, Pool.runs_setup rfl executes_watcher_setup⟩, rfl, ?_⟩
  simp

/-- One turn of the watcher. -/
theorem reachable_of_turn {path : Path} {e : TransferEvent} {w'' : Exchange}
    (h : ∃ s, (workerPool H cwd settings).Reachable (· = {}) s ∧ s.1 = w ∧ s.2 .watcher = .head ())
    (hbuild : Executes (watcherWorld H cwd settings) (Watcher.buildEvent H cwd path settings) w (.ok e) w')
    (hpublish : Executes (watcherWorld H cwd settings) (Watcher.publishWithReconnect settings e) w'
      (.ok ()) w'') :
    ∃ s, (workerPool H cwd settings).Reachable (· = {}) s ∧ s.1 = w'' ∧ s.2 .watcher = .head () := by
  obtain ⟨s, ⟨w₀, hw₀, hrun⟩, rfl, hhead⟩ := h
  refine ⟨_, ⟨w₀, hw₀, hrun.trans (Pool.runs_turn hhead (executes_turn hbuild hpublish))⟩, rfl, ?_⟩
  simp

end runs

/-- The example file. -/
theorem executes_buildEvent_sample :
    Executes (watcherWorld hashlib "/" {}) (Watcher.buildEvent hashlib "/" (fsencode "/watch/ORD-1.csv") {})
      {} (.ok (Sighting.sample.event hashlib "/" "/watch/ORD-1.csv" {})) (Exchange.sighted {} .sample) :=
  executes_buildEvent .sample (Json.fromUTF8?_toUTF8 _) (by simp) (by
    rw [List.mem_singleton]
    decide)

/-- The same content in another file, with other identifiers. -/
def Sighting.second : Sighting :=
  { Sighting.sample with
    eventId := ⟨"6f1d9c8e-0b3a-4a51-9d3f-5a2f6c1b7e90", by decide⟩
    correlationId := ⟨"7a2e0d9f-1c4b-4b62-8e40-6b307d2c8fa1", by decide⟩ }

/-- Two files whose events are published at the first attempt. -/
theorem identity_discipline_sample : ∃ s : (workerPool hashlib "/" {}).State,
    s.1.published.length = 2 ∧ IdentityDiscipline s.1.published ∧ PublishedOnce s.1.published := by
  have hfirst := reachable_of_turn reachable_watcher_head executes_buildEvent_sample (executes_publish _)
  obtain ⟨s, hs, hw, -⟩ := reachable_of_turn hfirst (executes_buildEvent .second
    (Json.fromUTF8?_toUTF8 "/watch/ORD-2.csv") (by decide) (by decide)) (executes_publish _)
  have hdiscipline := (identity_discipline_iff hs).2.2
  have honce : PublishedOnce s.1.published := by
    rw [hw]
    exact ⟨by simp [Exchange.publish, Exchange.sighted],
      by simp [Exchange.publish, Exchange.sighted, Exchange.originOf]⟩
  exact ⟨s, by rw [hw]; rfl, hdiscipline.2 honce, honce⟩

/-- **The event of a publication that failed is published again with the same `eventId`.** -/
theorem republished_eventId : ∃ s : (workerPool hashlib "/" {}).State,
    (workerPool hashlib "/" {}).Reachable (· = {}) s ∧ ¬IdentityDiscipline s.1.published := by
  obtain ⟨s, hs, hw, -⟩ := reachable_of_turn reachable_watcher_head executes_buildEvent_sample
    (executes_publish_again _)
  refine ⟨s, hs, fun h => ?_⟩
  have honce := (coherent_of_reachable hs).discipline_iff.1 h
  have horigins := honce.origins
  rw [hw] at horigins
  simp [Exchange.publish, Exchange.originOf] at horigins

end TransferWorker
