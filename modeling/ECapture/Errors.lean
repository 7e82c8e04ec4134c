import ECapture.Library.Bytes

/-!
# Errors

`internal/errors`: an error carries a code, a message and possibly a cause. The codes are
those of the event path and of the setup of a probe; contexts are log decoration and are left out.
-/

namespace ECapture
open Library

inductive ErrorCode where
  | configuration
  | eventDecode
  | eventDispatch
  | eventValidation
  | eventNotReady
  deriving DecidableEq, Repr

/-- The numbers of the 1xx and the 3xx block. -/
def ErrorCode.number : ErrorCode → Nat
  | .configuration => 100
  | .eventDecode => 300
  | .eventDispatch => 301
  | .eventValidation => 302
  | .eventNotReady => 303

inductive Error where
  /-- `fmt.Errorf`, and errors of the standard library. -/
  | text (message : Bytes)
  | coded (code : ErrorCode) (message : Bytes) (cause : Option Error)

/-- `errors.New`. -/
def Error.new (code : ErrorCode) (message : Bytes) : Error := .coded code message none

/-- `errors.Wrap`. -/
def Error.wrap (code : ErrorCode) (message : Bytes) (cause : Error) : Error :=
  .coded code message (some cause)

/-- `errors.NewEventDecodeError`. -/
def newEventDecodeError (eventType : Bytes) (cause : Error) : Error :=
  .wrap .eventDecode (str "failed to decode event of type '" ++ eventType ++ str "'") cause

end ECapture
