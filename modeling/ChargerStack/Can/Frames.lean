/-
# Can.Frames -- the command frames of can/can.c

A command sets a register of the power modules.  `set_frame_fill` puts the register and the
value into the data of a frame, and `can_id_fill_dst` the address into its id: point to point,
to one group under a group address, to an extended group under the address `0xFD - dst`, or to
all.  The id is a union with bit-fields, which are taken to be laid out without gaps from the
lowest bit on.

* `readParam_canIdFillDst`: no two addresses meet in the id;
* `frames_recovered`: a command is read back from its frame, and the id keeps to its 29 bits
  with the protocol number and the source address in them.
-/
import ChargerStack.Can.ModuleQueue
import ChargerStack.Utils.ByteOrder

namespace ChargerStack.Can.Frames

open ChargerStack.Cxx
open ChargerStack.Lib.BitFields
open ChargerStack.Utils.ByteOrder
open ChargerStack.Can.ModuleQueue (CanFrame)

set_option autoImplicit false

/-! ## The id -/

/-- `dc_model_param_t`. -/
structure DcModelParam where
  ptp : UInt8
  dst : UInt8
  group : UInt8
  deriving DecidableEq, Repr

/-- The bit-fields of `dcdc_can_id_u`, from the lowest bit on. -/
structure CanIdInfo where
  group : BitVec 3
  srcAddr : BitVec 8
  dstAddr : BitVec 8
  ptp : BitVec 1
  protno : BitVec 9
  reserved : BitVec 3
  deriving DecidableEq, Repr

def CanIdInfo.fields (info : CanIdInfo) : List Field :=
  [⟨3, info.group⟩, ⟨8, info.srcAddr⟩, ⟨8, info.dstAddr⟩, ⟨1, info.ptp⟩, ⟨9, info.protno⟩,
    ⟨3, info.reserved⟩]

/-- The member `id` of the union. -/
def CanIdInfo.id (info : CanIdInfo) : UInt32 := UInt32.ofNat (pack info.fields)

/-- The bit-fields of the union, when `id` has been stored. -/
def CanIdInfo.ofId (id : UInt32) : CanIdInfo where
  group := .ofNat 3 id.toNat
  srcAddr := .ofNat 8 (id.toNat / 2 ^ 3)
  dstAddr := .ofNat 8 (id.toNat / 2 ^ 3 / 2 ^ 8)
  ptp := .ofNat 1 (id.toNat / 2 ^ 3 / 2 ^ 8 / 2 ^ 8)
  protno := .ofNat 9 (id.toNat / 2 ^ 3 / 2 ^ 8 / 2 ^ 8 / 2 ^ 1)
  reserved := .ofNat 3 (id.toNat / 2 ^ 3 / 2 ^ 8 / 2 ^ 8 / 2 ^ 1 / 2 ^ 9)

/-- `ERROR_ID`. -/
def errorId : UInt32 := 0x00000000

/-- `PROTNO`. -/
def protno : BitVec 9 := 0x060

/-- `SRC_ADDR`. -/
def srcAddr : BitVec 8 := 0xF0

/-- `DST_BROADCAST`. -/
def dstBroadcast : UInt8 := 0xFE

/-- `DST_EXT_BROADCAST`. -/
def dstExtBroadcast : UInt8 := 0xFF

/-- The end of `can_id_fill_dst`. -/
def fillSrc (canId : CanIdInfo) : CanIdInfo := { canId with srcAddr := srcAddr, protno := protno }

/-- `can_id_fill_dst`. -/
def canIdFillDst (canIdParam : DcModelParam) : CanIdInfo :=
  let canId := { CanIdInfo.ofId 0 with ptp := .ofNat 1 canIdParam.ptp.toNat }
  if canIdParam.ptp = 1 then fillSrc { canId with dstAddr := canIdParam.dst.toBitVec }
  else if canIdParam.ptp = 0 then
    if canIdParam.dst = dstExtBroadcast then
      fillSrc { canId with dstAddr := canIdParam.dst.toBitVec }
    else if canIdParam.dst = dstBroadcast then
      fillSrc { canId with
        dstAddr := canIdParam.dst.toBitVec
        group := .ofNat 3 canIdParam.group.toNat }
    else fillSrc { canId with dstAddr := (0xFD - canIdParam.dst).toBitVec }
  else .ofId errorId

/-! ## The frame -/

/-- `CAN_EFF_FLAG`. -/
def canEffFlag : UInt32 := 0x80000000

/-- `CAN_EFF_MASK`. -/
def canEffMask : UInt32 := 0x1FFFFFFF

/-- `CAN_MAX_DLC`. -/
def canMaxDlc : UInt8 := 8

/-- `DCDC_CAN_FUNC_CODE_SET`. -/
def dcdcCanFuncCodeSet : UInt8 := 0x03

/-- `DCDC_DATA_LEN`. -/
def dcdcDataLen : Nat := 4

/-- `int32_2_can_need_format`. -/
def int32_2CanNeedFormat (host : ByteOrder) (value : UInt32) : List UInt8 :=
  bytesOf host 4 (htonl host value).toNat

/-- `float32_2_can_need_format`, on the bits of the value. -/
def float32_2CanNeedFormat (host : ByteOrder) (value : UInt32) : Except Failure (List UInt8) :=
  (convertByteOrder host (some (bytesOf host 4 value.toNat)) 4 true).map fun src =>
    (src.getD []).take dcdcDataLen

/-- The four bytes that `generic_set_mode_function` fills with either routine. -/
def canNeedFormat (host : ByteOrder) (isFloat : Bool) (value : UInt32) :
    Except Failure (List UInt8) :=
  if isFloat then float32_2CanNeedFormat host value else .ok (int32_2CanNeedFormat host value)

/-- `set_frame_fill`; `data` points at four bytes. -/
def setFrameFill (registerNum : UInt16) (data : List UInt8) (canIdParam : DcModelParam) :
    CanFrame where
  canId := (canIdFillDst canIdParam).id ||| canEffFlag
  canDlc := canMaxDlc
  pad := 0
  res0 := 0
  res1 := 0
  data := [dcdcCanFuncCodeSet, 0, (registerNum >>> 8).toUInt8, registerNum.toUInt8] ++
    data.take dcdcDataLen

/-! ## What is promised -/

/-- The parameters that the header asks for. -/
structure DcModelParam.Addressed (canIdParam : DcModelParam) : Prop where
  ptp : canIdParam.ptp = 0 ∨ canIdParam.ptp = 1
  group : canIdParam.group < 8
  alone : canIdParam.group = 0 ∨ canIdParam.ptp = 0 ∧ canIdParam.dst = dstBroadcast

/-- A command: whom it addresses, the register and the 32 bits to be set. -/
structure Command where
  canIdParam : DcModelParam
  registerNum : UInt16
  value : UInt32
  addressed : canIdParam.Addressed

/-- The frame of a command, with either routine for its value. -/
def Command.frame (host : ByteOrder) (isFloat : Bool) (c : Command) : Except Failure CanFrame :=
  (canNeedFormat host isFloat c.value).map fun data => setFrameFill c.registerNum data c.canIdParam

/-- The byte in which a destination is sent, and from which it is read: the number of an extended
group is turned round. -/
def dstCode (pointToPoint : Bool) (dst : UInt8) : UInt8 :=
  if pointToPoint = true ∨ dst = dstBroadcast ∨ dst = dstExtBroadcast then dst else 0xFD - dst

/-- Whom an id addresses. -/
def readParam (info : CanIdInfo) : DcModelParam where
  ptp := UInt8.ofNat info.ptp.toNat
  dst := dstCode (info.ptp = 1) (UInt8.ofBitVec info.dstAddr)
  group := UInt8.ofNat info.group.toNat

/-- What a frame says: the parameters, the register and the value. -/
def readFrame (frame : CanFrame) : DcModelParam × UInt16 × UInt32 :=
  (readParam (.ofId (frame.canId &&& canEffMask)),
    UInt16.ofNat (valueOf .big ((frame.data.drop 2).take 2)),
    UInt32.ofNat (valueOf .big (frame.data.drop 4)))

/-! ## The union -/

variable {info info' : CanIdInfo} {canIdParam : DcModelParam}

theorem fields_inj (same : info.fields = info'.fields) : info = info' := by
  obtain ⟨group, srcAddr, dstAddr, ptp, protno, reserved⟩ := info
  obtain ⟨group', srcAddr', dstAddr', ptp', protno', reserved'⟩ := info'
  simp only [CanIdInfo.fields, List.cons.injEq, Sigma.mk.injEq, heq_eq_eq, true_and, and_true]
    at same
  obtain ⟨rfl, rfl, rfl, rfl, rfl, rfl⟩ := same
  rfl

theorem toNat_id (info : CanIdInfo) : info.id.toNat = pack info.fields := by
  have widths : (info.fields.map Sigma.fst).sum = 32 := rfl
  have small := pack_lt info.fields
  rw [widths] at small
  exact UInt32.toNat_ofNat_of_lt' small

/-- **The bit-fields are read back from the id.** -/
theorem ofId_id (info : CanIdInfo) : CanIdInfo.ofId info.id = info := by
  have split : (CanIdInfo.ofId info.id).fields =
      unpack (info.fields.map Sigma.fst) info.id.toNat := rfl
  apply fields_inj
  rw [split, toNat_id, unpack_pack]

/-- Without the reserved bits, the id has 29. -/
theorem id_lt (unused : info.reserved = 0) : info.id.toNat < 2 ^ 29 := by
  have front := pack_lt [⟨3, info.group⟩, ⟨8, info.srcAddr⟩, ⟨8, info.dstAddr⟩, ⟨1, info.ptp⟩,
    ⟨9, info.protno⟩]
  have whole := pack_append [⟨3, info.group⟩, ⟨8, info.srcAddr⟩, ⟨8, info.dstAddr⟩,
    ⟨1, info.ptp⟩, ⟨9, info.protno⟩] [⟨3, info.reserved⟩]
  rw [unused] at whole
  have last : pack [⟨3, (0 : BitVec 3)⟩] = 0 := rfl
  rw [last, Nat.mul_zero, Nat.add_zero] at whole
  rw [toNat_id, CanIdInfo.fields, unused]
  exact whole ▸ front

/-- The flag for an extended frame is beside the id. -/
theorem masked {id : UInt32} (fits : id.toNat < 2 ^ 29) :
    (id ||| canEffFlag) &&& canEffMask = id := by
  apply UInt32.toNat_inj.1
  have flag : canEffFlag.toNat % 2 ^ 29 = 0 := by decide
  have mask : canEffMask.toNat = 2 ^ 29 - 1 := by decide
  rw [UInt32.toNat_and, UInt32.toNat_or, mask, Nat.and_two_pow_sub_one_eq_mod, Nat.or_mod_two_pow,
    flag, Nat.or_zero, Nat.mod_eq_of_lt fits]

/-! ## The address -/

/-- An extended group is sent under no address of the other broadcasts, and is read back. -/
theorem dstCode_dstCode (pointToPoint : Bool) (dst : UInt8) :
    dstCode pointToPoint (dstCode pointToPoint dst) = dst := by
  unfold dstCode
  by_cases plain : pointToPoint = true ∨ dst = dstBroadcast ∨ dst = dstExtBroadcast
  · rw [if_pos plain, if_pos plain]
  · rw [if_neg plain]
    have back : 0xFD - (0xFD - dst) = dst := by grind
    simp only [not_or] at plain
    obtain ⟨broadcast, notGroup, notAll⟩ := plain
    rw [if_neg, back]
    rintro (impossible | group | all)
    · exact broadcast impossible
    · exact notAll (by rw [← back, group]; rfl)
    · exact notGroup (by rw [← back, all]; rfl)

theorem ofId_zero : CanIdInfo.ofId 0 = ⟨0, 0, 0, 0, 0, 0⟩ := rfl

/-- What every branch of `can_id_fill_dst` comes to. -/
theorem canIdFillDst_eq (addressed : canIdParam.Addressed) :
    canIdFillDst canIdParam =
      { group := .ofNat 3 canIdParam.group.toNat
        srcAddr := srcAddr
        dstAddr := (dstCode (canIdParam.ptp = 1) canIdParam.dst).toBitVec
        ptp := .ofNat 1 canIdParam.ptp.toNat
        protno := protno
        reserved := 0 } := by
  obtain ⟨ptp, dst, group⟩ := canIdParam
  obtain ⟨rfl | rfl, -, alone⟩ := addressed
  · -- a broadcast
    unfold canIdFillDst dstCode
    dsimp only at alone ⊢
    by_cases all : dst = dstExtBroadcast
    · subst all
      obtain rfl : group = 0 := alone.resolve_right fun both => absurd both.2 (by decide)
      rfl
    · by_cases inGroup : dst = dstBroadcast
      · subst inGroup
        rfl
      · obtain rfl : group = 0 := alone.resolve_right fun both => inGroup both.2
        simp [all, inGroup, fillSrc, ofId_zero]
  · have point : ¬ (1 : UInt8) = 0 := by decide
    obtain rfl : group = 0 := alone.resolve_right fun both => point both.1
    simp [canIdFillDst, dstCode, fillSrc, ofId_zero]

/-- **No two addresses meet.** -/
theorem readParam_canIdFillDst (addressed : canIdParam.Addressed) :
    readParam (canIdFillDst canIdParam) = canIdParam := by
  have dst := dstCode_dstCode (canIdParam.ptp = 1) canIdParam.dst
  rw [canIdFillDst_eq addressed]
  unfold readParam
  have three : (BitVec.ofNat 3 canIdParam.group.toNat).toNat = canIdParam.group.toNat := by
    have small : canIdParam.group.toNat < 8 := addressed.group
    rw [BitVec.toNat_ofNat]
    omega
  have one : (BitVec.ofNat 1 canIdParam.ptp.toNat).toNat = canIdParam.ptp.toNat := by
    rcases addressed.ptp with zero | one
    · rw [zero]
      rfl
    · rw [one]
      rfl
  have point : (BitVec.ofNat 1 canIdParam.ptp.toNat = 1) ↔ canIdParam.ptp = 1 := by
    rcases addressed.ptp with zero | one
    · rw [zero]
      decide
    · rw [one]
      decide
  simp only [three, one, point, UInt8.ofNat_toNat, UInt8.ofBitVec_toBitVec, dst]

/-! ## The data -/

/-- On a host of either order, a value stands in the data with its highest byte first. -/
theorem int32_2CanNeedFormat_eq (host : ByteOrder) (value : UInt32) :
    int32_2CanNeedFormat host value = bytesOf .big 4 value.toNat := bytesOf_htonl host value

theorem float32_2CanNeedFormat_eq (host : ByteOrder) (value : UInt32) :
    float32_2CanNeedFormat host value = .ok (bytesOf .big 4 value.toNat) := by
  have converted := convertByteOrder_eq host true (bytesOf host 4 value.toNat) []
  have inNetworkOrder : (if host = .big ∧ true = true then bytesOf host 4 value.toNat
      else (bytesOf host 4 value.toNat).reverse) = bytesOf .big 4 value.toNat := by
    cases host with
    | little => rfl
    | big => rfl
  rw [length_bytesOf, List.append_nil, inNetworkOrder, List.append_nil] at converted
  have whole : (bytesOf .big 4 value.toNat).take dcdcDataLen = bytesOf .big 4 value.toNat :=
    List.take_of_length_le (Nat.le_of_eq length_bytesOf)
  rw [float32_2CanNeedFormat, converted]
  exact congrArg Except.ok whole

theorem canNeedFormat_eq (host : ByteOrder) (isFloat : Bool) (value : UInt32) :
    canNeedFormat host isFloat value = .ok (bytesOf .big 4 value.toNat) := by
  cases isFloat with
  | true => exact float32_2CanNeedFormat_eq host value
  | false => exact congrArg Except.ok (int32_2CanNeedFormat_eq host value)

/-- The two bytes of the register number. -/
theorem register_bytes (registerNum : UInt16) :
    [(registerNum >>> 8).toUInt8, registerNum.toUInt8] = bytesOf .big 2 registerNum.toNat := by
  have bytes : bytesOf .big 2 registerNum.toNat =
      [UInt8.ofNat (registerNum.toNat / 2 ^ 8 % 2 ^ 8), UInt8.ofNat (registerNum.toNat % 2 ^ 8)] :=
    rfl
  have high : (registerNum >>> 8).toUInt8 = UInt8.ofNat (registerNum.toNat / 2 ^ 8 % 2 ^ 8) := by
    apply UInt8.toNat_inj.1
    simp [Nat.shiftRight_eq_div_pow]
  have low : registerNum.toUInt8 = UInt8.ofNat (registerNum.toNat % 2 ^ 8) := by
    apply UInt8.toNat_inj.1
    simp
  rw [bytes, high, low]

/-- The data of a frame: the function code, a zero, the register and the value. -/
theorem data_setFrameFill {data : List UInt8} (four : data.length = 4) (registerNum : UInt16)
    (canIdParam : DcModelParam) :
    (setFrameFill registerNum data canIdParam).data =
      dcdcCanFuncCodeSet :: 0 :: (bytesOf .big 2 registerNum.toNat ++ data) := by
  have whole : data.take dcdcDataLen = data := List.take_of_length_le (Nat.le_of_eq four)
  rw [← register_bytes]
  exact congrArg ([dcdcCanFuncCodeSet, 0, (registerNum >>> 8).toUInt8, registerNum.toUInt8] ++ ·)
    whole

/-- The register and the value are read back from the data. -/
theorem data_read {register : List UInt8} (two : register.length = 2) (code zero : UInt8)
    (data : List UInt8) :
    ((code :: zero :: (register ++ data)).drop 2).take 2 = register ∧
      (code :: zero :: (register ++ data)).drop 4 = data :=
  ⟨List.take_left' two, List.drop_left' two⟩

/-- **A command is read back from its frame.** -/
theorem readFrame_setFrameFill (addressed : canIdParam.Addressed) (registerNum : UInt16)
    (value : UInt32) :
    readFrame (setFrameFill registerNum (bytesOf .big 4 value.toNat) canIdParam) =
      (canIdParam, registerNum, value) := by
  have unused : (canIdFillDst canIdParam).reserved = 0 := by rw [canIdFillDst_eq addressed]
  have param : readParam (.ofId ((setFrameFill registerNum (bytesOf .big 4 value.toNat)
      canIdParam).canId &&& canEffMask)) = canIdParam := by
    rw [setFrameFill, masked (id_lt unused), ofId_id, readParam_canIdFillDst addressed]
  have two : (bytesOf .big 2 registerNum.toNat).length = 2 := length_bytesOf
  have four : (bytesOf .big 4 value.toNat).length = 4 := length_bytesOf
  have data := data_setFrameFill four registerNum canIdParam
  obtain ⟨registerRead, valueRead⟩ :=
    data_read two dcdcCanFuncCodeSet 0 (bytesOf .big 4 value.toNat)
  have register : valueOf .big (bytesOf .big 2 registerNum.toNat) = registerNum.toNat :=
    valueOf_bytesOf registerNum.toNat_lt
  have bits : valueOf .big (bytesOf .big 4 value.toNat) = value.toNat :=
    valueOf_bytesOf value.toNat_lt
  rw [readFrame, param, data, registerRead, valueRead, register, bits, UInt16.ofNat_toNat,
    UInt32.ofNat_toNat]

theorem Command.frame_eq (host : ByteOrder) (isFloat : Bool) (c : Command) :
    c.frame host isFloat =
      .ok (setFrameFill c.registerNum (bytesOf .big 4 c.value.toNat) c.canIdParam) := by
  rw [Command.frame, canNeedFormat_eq]
  rfl

/-- **Commands and their frames.**  A command is read back from its frame, whichever routine wrote
its value, so different commands have different frames; and the id beside the flag keeps to 29
bits and has the protocol number and the source address. -/
theorem frames_recovered :
    (∀ (c : Command) (isFloat : Bool), ∃ frame, c.frame .little isFloat = .ok frame ∧
      readFrame frame = (c.canIdParam, c.registerNum, c.value) ∧
      ∃ id, frame.canId = id ||| canEffFlag ∧ id.toNat < 2 ^ 29 ∧
        (CanIdInfo.ofId id).protno = 0x060 ∧ (CanIdInfo.ofId id).srcAddr = 0xF0) ∧
    ∀ (c c' : Command) (isFloat isFloat' : Bool),
      c.frame .little isFloat = c'.frame .little isFloat' → c = c' := by
  constructor
  · intro c isFloat
    have address := canIdFillDst_eq c.addressed
    have unused : (canIdFillDst c.canIdParam).reserved = 0 := by rw [address]
    refine ⟨_, c.frame_eq .little isFloat, readFrame_setFrameFill c.addressed _ _, _, rfl,
      id_lt unused, ?_, ?_⟩
    · rw [ofId_id, address]
      rfl
    · rw [ofId_id, address]
      rfl
  · intro c c' isFloat isFloat' same
    rw [c.frame_eq, c'.frame_eq, Except.ok.injEq] at same
    have content := readFrame_setFrameFill c.addressed c.registerNum c.value
    rw [same, readFrame_setFrameFill c'.addressed, Prod.mk.injEq, Prod.mk.injEq] at content
    cases c
    cases c'
    obtain ⟨rfl, rfl, rfl⟩ := content
    rfl

/-- A current for group 3, under the group address. -/
example : (Command.frame .little false ⟨⟨0, 0xFE, 3⟩, 0x1B, 0x00019000, ⟨.inl rfl, by decide,
    .inr ⟨rfl, rfl⟩⟩⟩).map (fun frame => (frame.canId, frame.data)) =
      .ok (0x8607F783, [0x03, 0x00, 0x00, 0x1B, 0x00, 0x01, 0x90, 0x00]) := rfl

end ChargerStack.Can.Frames
