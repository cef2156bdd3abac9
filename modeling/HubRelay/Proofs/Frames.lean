import HubRelay.Exchange.Message

/-!
Frames and the messages in them.

`Message.Carried` lays a frame out field by field, and `Message.Reads` says what every string of
bytes reads as: a frame that is too short, a frame of no kind, or a message. `Message.decode`
decides it. Writing down what was read gives the frame back, but for the number of an error that
has no name (`Message.encode_of_carried`).
-/

namespace HubRelay

/-! ### Kinds of message -/

theorem MessageType.ofCode?_eq_none_iff : ∀ code : UInt8,
    MessageType.ofCode? code = none ↔ 5 < code := by
  intro code
  obtain ⟨⟨⟨n, h⟩⟩⟩ := code
  revert n
  decide +kernel

theorem MessageType.code_of_ofCode? {code : UInt8} {type : MessageType}
    (named : MessageType.ofCode? code = some type) : code = type.code := by
  unfold MessageType.ofCode? at named
  split at named <;> cases named <;> rfl

theorem MessageType.code_le (type : MessageType) : type.code ≤ 5 := by
  cases type <;> decide

namespace Message

/-! ### What a frame reads as -/

/-- The fields of a message as they stand in a frame: six bytes for handle, kind, command, error and
transaction in their places, and the payload behind them. -/
inductive Carried : Bytes → Message → Prop where
  | fields {handle : Handle} {type : MessageType} {transaction : TransactionId}
      {error low high : UInt8} {command : Command} {payload : Bytes} :
      command.toNat = low.toNat + 256 * high.toNat →
      Carried (handle :: type.code :: transaction :: error :: low :: high :: payload)
        ⟨⟨handle, type, transaction, ErrorCode.ofCode error, command⟩, payload⟩

/-- What a frame reads as. The two failures come in this order: a frame that is too short is not
looked at any further. -/
inductive Reads (frame : Bytes) : Except ExchangeError Message → Prop where
  | short : frame.length < 6 → Reads frame (.error (.truncatedHeader frame.length))
  | unknown {handle : Handle} {type : UInt8} :
      6 ≤ frame.length → frame[0]? = some handle → frame[1]? = some type → 5 < type →
      Reads frame (.error (.unknownType handle type))
  | message {m : Message} : Carried frame m → Reads frame (.ok m)

theorem Carried.long {frame : Bytes} {m : Message} (carried : Carried frame m) :
    6 ≤ frame.length ∧ ∃ type, frame[1]? = some type ∧ type ≤ 5 := by
  cases carried with
  | @fields _ type =>
      refine ⟨?_, type.code, rfl, type.code_le⟩
      simp only [List.length_cons]
      omega

theorem Carried.not_beyond {frame : Bytes} {m : Message} (carried : Carried frame m) {type : UInt8}
    (second : frame[1]? = some type) : ¬ 5 < type := by
  obtain ⟨-, known, second', named⟩ := carried.long
  rw [second] at second'
  rw [Option.some.inj second']
  exact UInt8.not_lt.mpr named

theorem Carried.unique {frame : Bytes} {m other : Message} (carried : Carried frame m)
    (carried' : Carried frame other) : m = other := by
  cases carried with
  | @fields handle type transaction error low high command payload value =>
      generalize shape : handle :: type.code :: transaction :: error :: low :: high :: payload =
        frame at carried'
      cases carried' with
      | @fields _ type' _ _ _ _ command' _ value' =>
          injection shape with handles shape
          injection shape with types shape
          injection shape with transactions shape
          injection shape with errors shape
          injection shape with lows shape
          injection shape with highs payloads
          have kinds : type = type' := by
            have known := MessageType.ofCode?_code type
            rw [types, MessageType.ofCode?_code] at known
            exact (Option.some.inj known).symm
          have commands : command = command' := by
            apply UInt16.toNat_inj.mp
            rw [value, value', lows, highs]
          rw [handles, kinds, transactions, errors, commands, payloads]

theorem reads_decode (frame : Bytes) : Reads frame (decode frame) := by
  match frame with
  | handle :: code :: transaction :: error :: low :: high :: payload =>
      cases kind : MessageType.ofCode? code with
      | none =>
          have beyond := (MessageType.ofCode?_eq_none_iff code).mp kind
          simp only [decode, kind]
          exact .unknown (by simp) rfl rfl beyond
      | some type =>
          have value : (UInt16.ofNat (Bytes.ofLittleEndian [low, high])).toNat =
              low.toNat + 256 * high.toNat := by
            have low_lt := low.toNat_lt
            have high_lt := high.toNat_lt
            rw [UInt16.toNat_ofNat', Bytes.ofLittleEndian, Bytes.ofLittleEndian,
              Bytes.ofLittleEndian, Nat.mod_eq_of_lt (by omega)]
            omega
          simp only [decode, kind]
          rw [MessageType.code_of_ofCode? kind]
          exact .message (.fields value)
  | [] | [_] | [_, _] | [_, _, _] | [_, _, _, _] | [_, _, _, _, _] => exact .short (by simp)

theorem Reads.unique {frame : Bytes} {answer other : Except ExchangeError Message}
    (reads : Reads frame answer) (reads' : Reads frame other) : answer = other := by
  cases reads with
  | short short =>
      cases reads' with
      | short => rfl
      | unknown long => exact absurd short (Nat.not_lt.mpr long)
      | message carried => exact absurd short (Nat.not_lt.mpr carried.long.1)
  | unknown long first second beyond =>
      cases reads' with
      | short short => exact absurd short (Nat.not_lt.mpr long)
      | unknown _ first' second' =>
          rw [first] at first'
          rw [second] at second'
          rw [Option.some.inj first', Option.some.inj second']
      | message carried => exact absurd beyond (carried.not_beyond second)
  | message carried =>
      cases reads' with
      | short short => exact absurd short (Nat.not_lt.mpr carried.long.1)
      | unknown _ _ second beyond => exact absurd beyond (carried.not_beyond second)
      | message carried' => rw [carried.unique carried']

theorem decode_eq_iff {frame : Bytes} {answer : Except ExchangeError Message} :
    decode frame = answer ↔ Reads frame answer := by
  constructor
  · rintro rfl
    exact reads_decode frame
  · intro reads
    exact (reads_decode frame).unique reads

/-! ### The three cases of a frame -/

theorem decode_eq_truncated_iff {frame : Bytes} {length : Nat} :
    decode frame = .error (.truncatedHeader length) ↔
      frame.length < 6 ∧ length = frame.length := by
  rw [decode_eq_iff]
  constructor
  · rintro (_ | _ | _)
    exact ⟨‹_›, rfl⟩
  · rintro ⟨short, rfl⟩
    exact .short short

theorem decode_eq_unknown_iff {frame : Bytes} {handle : Handle} {type : UInt8} :
    decode frame = .error (.unknownType handle type) ↔
      6 ≤ frame.length ∧ frame[0]? = some handle ∧ frame[1]? = some type ∧ 5 < type := by
  rw [decode_eq_iff]
  constructor
  · rintro (_ | ⟨long, first, second, beyond⟩ | _)
    exact ⟨long, first, second, beyond⟩
  · rintro ⟨long, first, second, beyond⟩
    exact .unknown long first second beyond

theorem decode_eq_ok_iff {frame : Bytes} {m : Message} :
    decode frame = .ok m ↔ Carried frame m := by
  rw [decode_eq_iff]
  constructor
  · rintro (_ | _ | carried)
    exact carried
  · exact .message

/-- A frame that is long enough and of a known kind carries a message. -/
theorem exists_carried_iff {frame : Bytes} :
    (∃ m, Carried frame m) ↔ 6 ≤ frame.length ∧ ∃ type, frame[1]? = some type ∧ type ≤ 5 := by
  constructor
  · rintro ⟨m, carried⟩
    exact carried.long
  · rintro ⟨long, type, second, named⟩
    generalize read : decode frame = answer
    cases decode_eq_iff.mp read with
    | short short => exact absurd short (Nat.not_lt.mpr long)
    | unknown _ _ second' beyond =>
        rw [second'] at second
        rw [Option.some.inj second] at beyond
        exact absurd beyond (UInt8.not_lt.mpr named)
    | @message m carried => exact ⟨m, carried⟩

/-! ### Writing down what was read -/

/-- The number of an error, if it has a name; the others count as unspecified. It is all that is
lost when a frame is read and written again. -/
def named (code : UInt8) : UInt8 := if 13 ≤ code.toNat ∧ code.toNat ≤ 254 then 255 else code

theorem encode_of_carried {frame : Bytes} {m : Message} (carried : Carried frame m) :
    m.encode = frame.modify 3 named := by
  cases carried with
  | @fields _ _ _ error low high command payload value =>
      have number : command.toNat = Bytes.ofLittleEndian [low, high] := value
      have bytes : Bytes.littleEndian 2 command.toNat = [low, high] := by
        rw [number]
        exact Bytes.littleEndian_ofLittleEndian [low, high]
      simp only [encode, bytes, ErrorCode.code_ofCode]
      rfl

end Message

/-- A message survives being written and read; a frame survives being read and written, but for the
number of an error without a name. What does not carry a message is refused for its reason.

Every string of bytes is covered, and each of the reasons is given exactly when it applies. -/
theorem frames_carry_messages :
    (∀ m : Message, Message.decode m.encode = .ok m) ∧
      ∀ frame : Bytes,
        (∀ length, Message.decode frame = .error (.truncatedHeader length) ↔
          frame.length < 6 ∧ length = frame.length) ∧
        (∀ handle type, Message.decode frame = .error (.unknownType handle type) ↔
          6 ≤ frame.length ∧ frame[0]? = some handle ∧ frame[1]? = some type ∧ 5 < type) ∧
        ((∃ m, Message.decode frame = .ok m) ↔
          6 ≤ frame.length ∧ ∃ type, frame[1]? = some type ∧ type ≤ 5) ∧
        (∀ m, Message.decode frame = .ok m ↔ Message.Carried frame m) ∧
        ∀ m, Message.decode frame = .ok m →
          m.encode = frame.modify 3 fun code =>
            if 13 ≤ code.toNat ∧ code.toNat ≤ 254 then 255 else code := by
  refine ⟨Message.decode_encode, fun frame => ⟨?short, ?unknown, ?message, ?layout, ?back⟩⟩
  case short =>
    intro length
    exact Message.decode_eq_truncated_iff
  case unknown =>
    intro handle type
    exact Message.decode_eq_unknown_iff
  case message =>
    simp only [Message.decode_eq_ok_iff]
    exact Message.exists_carried_iff
  case layout =>
    intro m
    exact Message.decode_eq_ok_iff
  case back =>
    intro m decoded
    exact Message.encode_of_carried (Message.decode_eq_ok_iff.mp decoded)

/-- The fields in their order, the low byte of the command first. -/
example :
    Message.encode ⟨⟨0x10, .clientRequest, 7, .none, 0x0102⟩, [120, 121]⟩ =
      [0x10, 0, 7, 0, 0x02, 0x01, 120, 121] := by
  decide

end HubRelay
