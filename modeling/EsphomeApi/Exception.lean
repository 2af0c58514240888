/-
EsphomeApi.Exception — the exception hierarchy of `exception.hpp`: a kind,
which decides what a `catch` clause catches, and a text.
-/
import Mathlib.Data.List.Basic

namespace EsphomeApi

/-- The bytes of a C++ string. Texts built from literals and from what a
device sent are byte strings, not Unicode text. -/
abbrev CString := List UInt8

/-- A string literal of the source. -/
def lit (s : String) : CString := s.toList.map fun c => UInt8.ofNat c.toNat

/-- `std::to_string` of an integer. -/
def toCString (n : Int) : CString := lit (toString n)

/-- The classes of `exception.hpp`. -/
inductive ExceptionKind where
  | apiError
  | connectionError
  | protocolError
  | handshakeError
  | encryptionMismatchError
  | authenticationError
  | timeoutError
  | encryptionError
  deriving DecidableEq, Repr

/-- The direct base class of each class; `ApiError` has none in the library. -/
def ExceptionKind.base : ExceptionKind → Option ExceptionKind
  | .apiError => none
  | .connectionError => some .apiError
  | .protocolError => some .apiError
  | .handshakeError => some .protocolError
  | .encryptionMismatchError => some .handshakeError
  | .authenticationError => some .apiError
  | .timeoutError => some .apiError
  | .encryptionError => some .protocolError

/-- Whether `catch (const ProtocolError&)` catches an exception of this
class: it is `ProtocolError` or derives from it. -/
def ExceptionKind.isProtocolError (k : ExceptionKind) : Bool :=
  k = .protocolError || k.base = some .protocolError ||
    (k.base.bind ExceptionKind.base) = some .protocolError

structure ApiException where
  kind : ExceptionKind
  what : CString
  deriving DecidableEq, Repr

end EsphomeApi
