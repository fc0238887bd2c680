import ConversationService.Model.Storage

/-!
# Idempotency service (`app/services/idempotency_service.py`)

The lock of a client's request and the response that is kept under its key. What Redis
raises is swallowed; a claim that raised counts as one that found the key free.
-/

namespace ConversationService

open Python Programs

/-- `redis` says whether the service was given a client. -/
structure IdempotencyService where
  redis : Bool
deriving DecidableEq, Repr

namespace IdempotencyService

/-- `SET NX`, and a `GET` when the key is taken; `none` stands for a claimed key. -/
def claimKey (svc : IdempotencyService) (key : Text) : Py (Option IdempotencyValue) :=
  if svc.redis then
    Prog.tryCatch
      (do
        let acquired <- perform (.claimIdempotency key)
        if acquired then pure none
        else perform (.getIdempotency key))
      (fun _ => pure none)
  else pure none

def saveResponse (svc : IdempotencyService) (key : Text) (responsePayload : SavedResponse) :
    Py Unit :=
  if svc.redis then
    Prog.tryCatch (perform (.setIdempotency key (.saved responsePayload)))
      (fun _ => pure ())
  else pure ()

def removeLock (svc : IdempotencyService) (key : Text) : Py Unit :=
  if svc.redis then
    Prog.tryCatch (perform (.deleteIdempotency key)) (fun _ => pure ())
  else pure ()

end IdempotencyService
end ConversationService
