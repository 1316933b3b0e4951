import TransferWorker.Worker.Operations

/-! # The uploader

`upload_all` starts one task for each destination of an event and waits for all of them; every task
turns the way its upload function ended into a result. -/

namespace TransferWorker

open CallTrees

/-- **`UploadResult`** -/
structure UploadResult where
  /-- The provider of the destination. -/
  provider : Provider
  /-- The upload succeeded. -/
  ok : Bool
  /-- The error code of a failure. -/
  error : Option String
deriving DecidableEq

/-- `_upload_one`: the result for a destination whose upload function ended so. The branch for an
unsupported provider is not there: the type of `provider` excludes it. -/
def uploadOne (destination : Destination) : Outcome → UploadResult
  | .returned => ⟨destination.provider, true, none⟩
  | .timedOut =>
      ⟨destination.provider, false, some (destination.provider.text ++ ":upload_timeout")⟩
  | .raised cls => ⟨destination.provider, false, some (destination.provider.text ++ ":" ++ cls)⟩

/-- An upload is ok exactly if its function returned. -/
@[simp] theorem uploadOne_ok (d : Destination) (o : Outcome) :
    (uploadOne d o).ok = true ↔ o = .returned := by
  cases o <;> simp [uploadOne]

/-- **`upload_all`**: the results in the order of the destinations. -/
def uploadAll (settings : Settings) (event : TransferEvent) (path : Path) :
    Prog (List UploadResult) := do
  if settings.uploadMaxConcurrency < 0 then
    throwing (.value "Semaphore initial value must be >= 0")
  else
    call (.uploadStart event path)
    let outcomes ← call .uploadGather
    return List.zipWith uploadOne event.destinations.val outcomes

end TransferWorker
