import FlasherStub.Codec
import FlasherStub.ResponseCode

/-! Responses on the wire: what a host makes of the frame of a response is the response. -/

namespace FlasherStub

open ByteMemory

/-- What the host reads in a response. -/
structure Response where
  command : UInt8
  value : Nat
  data : List UInt8
  status : Nat
deriving DecidableEq

/-- The status is sent in the other byte order. -/
def getBeToU16 (buf : Memory) (p : Nat) : Nat :=
  (buf p).toNat <<< 8 ||| (buf (p + 1)).toNat

/-- The size field counts the data and the status behind it. -/
def parseResponse (frame : List UInt8) : Option Response :=
  let buf := Memory.ofList frame
  let size := getLeToU16 buf 2
  if frame.length = headerSize + size ∧ 2 ≤ size ∧ buf 0 = UInt8.ofNat directionResponse then
    some {
      command := buf 1
      value := getLeToU32 buf 4
      data := buf.read headerSize (size - 2)
      status := getBeToU16 buf (headerSize + (size - 2)) }
  else none

theorem getBeToU16_setU16ToBe {val : Nat} (pre : List UInt8) (small : val < 2 ^ 16) :
    getBeToU16 (Memory.ofList (pre ++ setU16ToBe val)) pre.length = val := by
  have high : Memory.ofList (pre ++ setU16ToBe val) pre.length =
      UInt8.ofNat (val >>> 8 &&& 0xff) := Memory.ofList_append pre _ 0
  have low : Memory.ofList (pre ++ setU16ToBe val) (pre.length + 1) =
      UInt8.ofNat (val >>> 0 &&& 0xff) := Memory.ofList_append pre _ 1
  have lt : val / 2 ^ 0 % 2 ^ 8 < 2 ^ 8 := Nat.mod_lt _ (by omega)
  rw [getBeToU16, low, high, toNat_byte, toNat_byte, ← Nat.shiftLeft_add_eq_or_of_lt lt,
    Nat.shiftLeft_eq]
  omega

section Frame

variable (command : UInt8) (code : Int) (resp : Option ResponseData)

/-- The number of data bytes that are sent. -/
def sentSize (resp : Option ResponseData) : Nat := min (resp.getD {}).dataSize maxResponseDataSize

def responseHeader (command : UInt8) (resp : Option ResponseData) : List UInt8 :=
  [UInt8.ofNat directionResponse, command] ++ setU16ToLe (sentSize resp + 2) ++
    setU32ToLe (resp.getD {}).value

theorem responseFrame_eq : responseFrame command.toNat code resp = responseHeader command resp ++
    ((resp.getD {}).data.read 0 (sentSize resp) ++ setU16ToBe (code % 2 ^ 16).toNat) := by
  simp [responseFrame, responseHeader, sentSize]

theorem length_responseFrame :
    (responseFrame command.toNat code resp).length = headerSize + (sentSize resp + 2) := by
  simp [responseFrame, sentSize, headerSize, setU16ToLe, setU32ToLe, setU16ToBe]
  omega

theorem sentSize_le (resp : Option ResponseData) : sentSize resp ≤ 64 := Nat.min_le_right _ _

theorem responseFrame_size :
    getLeToU16 (Memory.ofList (responseFrame command.toNat code resp)) 2 = sentSize resp + 2 := by
  have le := sentSize_le resp
  have split : responseFrame command.toNat code resp =
      [UInt8.ofNat directionResponse, command] ++ (setU16ToLe (sentSize resp + 2) ++
        (setU32ToLe (resp.getD {}).value ++ ((resp.getD {}).data.read 0 (sentSize resp) ++
          setU16ToBe (code % 2 ^ 16).toNat))) := by
    simp [responseFrame, sentSize]
  rw [split]
  exact getLeToU16_setU16ToLe [_, _] _ (by omega)

theorem responseFrame_value (small : (resp.getD {}).value < 2 ^ 32) :
    getLeToU32 (Memory.ofList (responseFrame command.toNat code resp)) 4 =
      (resp.getD {}).value := by
  have split : responseFrame command.toNat code resp =
      ([UInt8.ofNat directionResponse, command] ++ setU16ToLe (sentSize resp + 2)) ++
        (setU32ToLe (resp.getD {}).value ++ ((resp.getD {}).data.read 0 (sentSize resp) ++
          setU16ToBe (code % 2 ^ 16).toNat)) := by
    simp [responseFrame, sentSize]
  rw [split]
  exact getLeToU32_setU32ToLe (_ ++ setU16ToLe _) _ small

theorem responseFrame_data :
    (Memory.ofList (responseFrame command.toNat code resp)).read headerSize (sentSize resp) =
      (resp.getD {}).data.read 0 (sentSize resp) := by
  have part := Memory.read_ofList_append (responseHeader command resp)
    ((resp.getD {}).data.read 0 (sentSize resp)) (setU16ToBe (code % 2 ^ 16).toNat)
  rwa [← responseFrame_eq, Memory.length_read] at part

theorem responseFrame_status :
    getBeToU16 (Memory.ofList (responseFrame command.toNat code resp))
      (headerSize + sentSize resp) = (code % 2 ^ 16).toNat := by
  have small : (code % 2 ^ 16).toNat < 2 ^ 16 := by omega
  have part := getBeToU16_setU16ToBe
    (responseHeader command resp ++ (resp.getD {}).data.read 0 (sentSize resp)) small
  rwa [List.append_assoc, ← responseFrame_eq, List.length_append, Memory.length_read] at part

theorem parseResponse_responseFrame (small : (resp.getD {}).value < 2 ^ 32) :
    parseResponse (responseFrame command.toNat code resp) = some {
      command := command
      value := (resp.getD {}).value
      data := (resp.getD {}).data.read 0 (sentSize resp)
      status := (code % 2 ^ 16).toNat } := by
  have direction : Memory.ofList (responseFrame command.toNat code resp) 0 =
      UInt8.ofNat directionResponse := by simp [responseFrame_eq, responseHeader, Memory.ofList]
  have second : Memory.ofList (responseFrame command.toNat code resp) 1 = command := by
    simp [responseFrame_eq, responseHeader, Memory.ofList]
  have len := length_responseFrame command code resp
  simp only [parseResponse, responseFrame_size]
  rw [if_pos ⟨len, by omega, direction⟩, second, Nat.add_sub_cancel,
    responseFrame_value command code resp small, responseFrame_data, responseFrame_status]

end Frame

/-- A receiver with a free buffer takes the bytes sent for a frame that fits as that frame. -/
theorem completes_slipSendFrame {r : Receiver} (idle : r.state = .noFrame)
    (buf : r.rxBuf = some r.frames.rxIdx) (clear : r.rxBuffer.Clear)
    (cap : r.rxCap ≤ frameBufferSize) {p : List UInt8} (nonempty : p ≠ [])
    (fits : p.length ≤ r.rxCap) : Completes r (recvBytes r (slipSendFrame p)) p := by
  have fed : (Slip.feed r.rxCap (.inFrame []) (p.flatMap Slip.escape ++ [Slip.endByte])).2 =
      [.frame p] := by
    simp [Slip.feed_append, Slip.feed_body r.rxCap p [] (by simpa using fits), Slip.feed, nonempty]
  obtain ⟨ready, marked⟩ := received_frame idle buf cap clear le_rfl fed
  exact ⟨marked, ready.holds⟩

/-- The host's view of a response is what the stub has put into it, with no more data than
the frame has room for. -/
theorem response_survives (r : Receiver) (idle : r.state = .noFrame)
    (buf : r.rxBuf = some r.frames.rxIdx) (clear : r.rxBuffer.Clear) (room : 74 ≤ r.rxCap)
    (cap : r.rxCap ≤ frameBufferSize) (command : UInt8) (code : Int) (isCode : IsCode code)
    (resp : Option ResponseData) (small : ∀ d ∈ resp, d.value < 2 ^ 32) :
    let frame := responseFrame command.toNat code resp
    Completes r (recvBytes r (slipSendFrame frame)) frame ∧
      frame.length = 8 + getLeToU16 (Memory.ofList frame) 2 ∧ frame.length ≤ 74 ∧
      parseResponse frame = some {
        command := command
        value := resp.elim 0 fun d => d.value
        data := resp.elim [] fun d => d.data.read 0 (min d.dataSize 64)
        status := code.toNat } := by
  have len : (responseFrame command.toNat code resp).length = 8 + (sentSize resp + 2) :=
    length_responseFrame command code resp
  have size := sentSize_le resp
  have le : (responseFrame command.toNat code resp).length ≤ 74 := by omega
  have status : (code % 2 ^ 16).toNat = code.toNat := by
    rw [Int.emod_eq_of_lt isCode.1 isCode.2]
  refine ⟨completes_slipSendFrame idle buf clear cap ?_ (le.trans room), ?_, le, ?_⟩
  · rw [← List.length_pos_iff]
    omega
  · rw [len, responseFrame_size]
  · rw [← status]
    cases resp with
    | none => exact parseResponse_responseFrame command code none (by decide)
    | some d => exact parseResponse_responseFrame command code (some d) (small d rfl)

/-- A response with a delimiter in its command, its value and its data. -/
theorem response_survives_escaped :
    let r := slipDoRearm .initial
    let d : ResponseData := { value := 0xC0DB, data := Memory.ofList [0xDB, 0xC0], dataSize := 2 }
    let frame := responseFrame 0xC0 responseFailedSpiOp (some d)
    Completes r (recvBytes r (slipSendFrame frame)) frame ∧
      parseResponse frame = some ⟨0xC0, 0xC0DB, [0xDB, 0xC0], 0xC400⟩ := by
  have survives := response_survives (slipDoRearm .initial) rfl rfl ⟨rfl, rfl⟩ (by decide) le_rfl
    0xC0 responseFailedSpiOp isCode_failedSpiOp
    (some { value := 0xC0DB, data := Memory.ofList [0xDB, 0xC0], dataSize := 2 }) (by simp)
  exact ⟨survives.1, survives.2.2.2⟩

end FlasherStub
