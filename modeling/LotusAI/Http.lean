import LotusAI.Lib.Program
import Mathlib.Data.Nat.Notation

/-!
# What the services share

The exceptions that leave a service and the authorization gate in front of the
control-plane operations, over whatever calls a service makes.
-/

namespace LotusAI

open Lib

/-- An exception that leaves a service: an `HTTPException`, or any other. -/
inductive Raised
  | http (statusCode : ℕ) (detail : String)
  | other (text : String)
  deriving DecidableEq

/-- `HTTP_403_FORBIDDEN`. -/
def forbidden (detail : String) : Raised := .http 403 detail

/-- `HTTP_404_NOT_FOUND`. -/
def notFound (detail : String) : Raised := .http 404 detail

/-- `HTTP_409_CONFLICT`. -/
def conflict (detail : String) : Raised := .http 409 detail

/-- `HTTP_422_UNPROCESSABLE_CONTENT`. -/
def unprocessable (detail : String) : Raised := .http 422 detail

/-- `AuthorizationDecision`, as far as the services read it. -/
structure AuthorizationDecision where
  callerApp : String
  allowed : Bool
  summary : String
  deriving DecidableEq

variable {Op : Type} {Res : Op → Type}

/-- Raise what a call answered with, or continue with its value. -/
def orRaise {α : Type} : Except Raised α → Prog.Raising Res Raised α
  | .ok a => pure a
  | .error e => throw e

/-- `require_authorized`: a refused caller is turned away with the decision's summary. -/
def requireAuthorized (decision : AuthorizationDecision) :
    Prog.Raising Res Raised AuthorizationDecision :=
  if decision.allowed then pure decision else throw (forbidden decision.summary)

end LotusAI
