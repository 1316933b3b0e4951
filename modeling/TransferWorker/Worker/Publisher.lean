import TransferWorker.Worker.Operations

/-! # The publisher

Connection helpers and the confirmed publisher. All routing goes through the default exchange, so a
routing key is a queue's name. -/

namespace TransferWorker

open CallTrees

/-- `declare_topology`: the main, the retry and the dead-letter queue; the retry queue dead-letters
back onto the main queue. -/
def declareTopology (settings : Settings) : Prog Unit := do
  call (.queueDeclare settings.queueName [])
  call (.queueDeclare settings.retryQueueName
    [("x-dead-letter-exchange", ""), ("x-dead-letter-routing-key", settings.queueName)])
  call (.queueDeclare settings.dlqName [])

/-- `connect_and_setup`: connection, channel, topology, and a `Publisher`, whose constructor turns
confirmations on. -/
def connectAndSetup (settings : Settings) : Prog Unit := do
  call .connect
  call .channel
  declareTopology settings
  call .confirmDelivery

namespace Publisher

/-- The message that `_publish` makes of an event. -/
def message (event : TransferEvent) (expiration : Option String)
    (headers : Option (List (String × String))) : Message where
  body := event.toJsonBytes
  properties :=
    { contentType := some "application/json"
      messageId := some event.eventId
      correlationId := some event.correlationId
      expiration := expiration
      headers := headers }

/-- `_publish` -/
def publish (queue : String) (event : TransferEvent) (expiration : Option String)
    (headers : Option (List (String × String))) : Prog Unit :=
  call (.basicPublish queue (message event expiration headers))

/-- `publish_event` -/
def publishEvent (settings : Settings) (event : TransferEvent) : Prog Unit :=
  publish settings.queueName event none none

/-- `publish_retry` -/
def publishRetry (settings : Settings) (event : TransferEvent) (delayMs : Int) : Prog Unit :=
  publish settings.retryQueueName event (some (toString delayMs)) none

/-- `publish_dlq` -/
def publishDlq (settings : Settings) (event : TransferEvent) (reason : String) : Prog Unit :=
  publish settings.dlqName event none (some [("x-dlq-reason", reason)])

/-- Whatever is published, its body decodes to the event. -/
@[simp] theorem fromJsonBytes_message (event : TransferEvent) (expiration : Option String)
    (headers : Option (List (String × String))) :
    TransferEvent.fromJsonBytes (message event expiration headers).body = .ok event :=
  TransferEvent.fromJsonBytes_toJsonBytes event

end Publisher

end TransferWorker
