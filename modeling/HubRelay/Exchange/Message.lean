import HubRelay.Bytes
import HubRelay.Exchange.Error

/-!
Messages between endpoints: a header of six bytes and an opaque payload.

Reading a written message gives it back (`decode_encode`).
-/

namespace HubRelay

/-- The fields in front of every payload. -/
structure Header where
  handle : Handle
  type : MessageType
  transaction : TransactionId
  error : ErrorCode
  command : Command
  deriving DecidableEq

/-- One message. -/
structure Message where
  header : Header
  payload : Bytes
  deriving DecidableEq

namespace Header

/-- No endpoint has this handle. -/
def noHandle : Handle := 0

def size : Nat := 6

/-- The header of the response with code `error`; only requests have one. -/
def response? (request : Header) (error : ErrorCode) : Option Header :=
  request.type.response?.map fun type => { request with type, error }

end Header

namespace Message

def encode (m : Message) : Bytes :=
  m.header.handle :: m.header.type.code :: m.header.transaction :: m.header.error.code ::
    (Bytes.littleEndian 2 m.header.command.toNat ++ m.payload)

/-- The message that a frame carries. A frame shorter than a header and an unknown kind of message
are refused; an error number without a name is read as `unspecified`. -/
def decode : Bytes → Except ExchangeError Message
  | handle :: type :: transaction :: error :: low :: high :: payload =>
      match MessageType.ofCode? type with
      | none => .error (.unknownType handle type)
      | some kind =>
          .ok { header :=
                  { handle, type := kind, transaction, error := ErrorCode.ofCode error
                    command := UInt16.ofNat (Bytes.ofLittleEndian [low, high]) }
                payload }
  | short => .error (.truncatedHeader short.length)

theorem decode_encode (m : Message) : decode m.encode = .ok m := by
  obtain ⟨⟨handle, type, transaction, error, command⟩, payload⟩ := m
  have fits : command.toNat < Nat.pow 256 2 := command.toNat_lt
  have back := Bytes.ofLittleEndian_littleEndian fits
  simp only [encode, Bytes.littleEndian, List.cons_append, List.nil_append, decode,
    MessageType.ofCode?_code, ErrorCode.ofCode_code] at back ⊢
  rw [back, UInt16.ofNat_toNat]

end Message

end HubRelay
