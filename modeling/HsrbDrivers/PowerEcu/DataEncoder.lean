import HsrbDrivers.PowerEcu.FrameEncoder
import Mathlib.Data.Nat.Digits.Lemmas

namespace HsrbDrivers.PowerEcu
open CText

structure Color where
  r : UInt8
  g : UInt8
  b : UInt8
deriving DecidableEq

structure Parameters where
  startTime : List UInt8
  isEnableEcu1 : Bool
  isEnableEcu2 : Bool
  errorState : UInt16
  counts : UInt32
  isPumpEnable : UInt8
  isMotorEnable : UInt8
  ledColor : Color
  isQuaternionReset : Bool
  isGyroReset : Bool
  isSolenoidEnable : UInt8
  isCpuShutdown : Bool
  isGpuShutdown : Bool
  isEx1Shutdown : Bool
  isAmpMute : Bool
  is12vuEnable : Bool
  is5vd3Enable : Bool
  is5vd4Enable : Bool
  is5vd5Enable : Bool
  reproVersion : List UInt8
  reproData : List UInt8
deriving DecidableEq

def Parameters.initial : Parameters where
  startTime := []
  isEnableEcu1 := false
  isEnableEcu2 := false
  errorState := 0
  counts := 0
  isPumpEnable := 0
  isMotorEnable := 0
  ledColor := ⟨0,0,0⟩
  isQuaternionReset := false
  isGyroReset := false
  isSolenoidEnable := 0
  isCpuShutdown := false
  isGpuShutdown := false
  isEx1Shutdown := false
  isAmpMute := false
  is12vuEnable := false
  is5vd3Enable := false
  is5vd4Enable := false
  is5vd5Enable := false
  reproVersion := []
  reproData := []

def dataEncoder (packetSize packetName : String) (elements : List (ElementEncoder π)) : DataEncoder π where
  packetName := ascii packetName
  getPacketSizeStr _ := ascii packetSize
  elements := elements
  overridden := none

def bitsOfTwoDigits (bits : List (Nat × (π → Bool))) : BitMap π :=
  bits.foldl (fun map (bit,flag) => (ElementHexUintBitsEncoder.registerBit map bit flag).2)
    (ElementHexUintBitsEncoder.empty 2 (by decide))

def kGetvpacketData : Nat := 0
def kRprosVersionSize : Nat := 41

def powerEcuComTimeDataEncoder : DataEncoder Parameters :=
  dataEncoder "026" "time_" [elementStringEncoder (fun m => m.startTime) 14]

def powerEcuComStartDataEncoder : DataEncoder Parameters :=
  dataEncoder "015" "start"
    [elementHexUintBitsEncoder (bitsOfTwoDigits [(1,fun m => m.isEnableEcu2),(0,fun m => m.isEnableEcu1)])]

def powerEcuComStopDataEncoder : DataEncoder Parameters := dataEncoder "011" "stop_" []

def powerEcuComHeartDataEncoder : DataEncoder Parameters :=
  dataEncoder "027" "heart"
    [elementHexUintEncoder (fun m => m.errorState.toNat) 4,elementHexUintEncoder (fun m => m.counts.toNat) 8]

def powerEcuComPumpDataEncoder : DataEncoder Parameters :=
  dataEncoder "013" "pump_" [elementUintEncoder (fun m => m.isPumpEnable.toNat) 1]

def powerEcuComPbmswDataEncoder : DataEncoder Parameters :=
  dataEncoder "013" "pbmsw" [elementUintEncoder (fun m => m.isMotorEnable.toNat) 1]

def powerEcuComLedcDataEncoder : DataEncoder Parameters :=
  dataEncoder "023" "ledc_"
    [elementUintEncoder (fun m => m.ledColor.r.toNat) 3,elementUintEncoder (fun m => m.ledColor.g.toNat) 3,
      elementUintEncoder (fun m => m.ledColor.b.toNat) 3]

def powerEcuComGResDataEncoder : DataEncoder Parameters :=
  dataEncoder "015" "g_res"
    [elementHexUintBitsEncoder (bitsOfTwoDigits [(0,fun m => m.isQuaternionReset),(1,fun m => m.isGyroReset)])]

def powerEcuComSolswDataEncoder : DataEncoder Parameters :=
  dataEncoder "015" "solsw" [elementHexUintEncoder (fun m => m.isSolenoidEnable.toNat) 2]

def powerEcuComPdcmdDataEncoder : DataEncoder Parameters :=
  dataEncoder "015" "pdcmd"
    [elementHexUintBitsEncoder
      (bitsOfTwoDigits [(0,fun m => m.isCpuShutdown),(1,fun m => m.isGpuShutdown),(2,fun m => m.isEx1Shutdown)])]

def powerEcuComMuteDataEncoder : DataEncoder Parameters :=
  dataEncoder "015" "mute_" [elementHexUintBitsEncoder (bitsOfTwoDigits [(0,fun m => m.isAmpMute)])]

def powerEcuComGetvDataEncoder : DataEncoder Parameters :=
  dataEncoder "015" "getv_" [elementHexUintEncoder (fun _ => kGetvpacketData) 2]

def powerEcuComUndckDataEncoder : DataEncoder Parameters := dataEncoder "011" "undck" []

def powerEcuCom12VuDataEncoder : DataEncoder Parameters :=
  dataEncoder "013" "12vu_" [elementUintEncoder (fun m => m.is12vuEnable.toNat) 1]

def powerEcuCom5Vd3DataEncoder : DataEncoder Parameters :=
  dataEncoder "013" "5vd3_" [elementUintEncoder (fun m => m.is5vd3Enable.toNat) 1]

def powerEcuCom5Vd4DataEncoder : DataEncoder Parameters :=
  dataEncoder "013" "5vd4_" [elementUintEncoder (fun m => m.is5vd4Enable.toNat) 1]

def powerEcuCom5Vd5DataEncoder : DataEncoder Parameters :=
  dataEncoder "013" "5vd5_" [elementUintEncoder (fun m => m.is5vd5Enable.toNat) 1]

-- The reserved element is the constant the constructor sets.
def powerEcuComRprosDataEncoder : DataEncoder Parameters :=
  dataEncoder "055" "rpros" [elementUintEncoder (fun _ => 0) 1,elementStringEncoder (fun m => m.reproVersion) kRprosVersionSize]

def paddedTo3 (value : Nat) : List UInt8 := numeral 10 (Nat.max 3 (Nat.digits 10 value).length) value

-- The one encoder that overrides `Encode` and `GetPacketSizeStr`.
def powerEcuComRprodDataEncoder : DataEncoder Parameters where
  packetName := ascii "rprod"
  getPacketSizeStr m := paddedTo3 (m.reproData.length + 11)
  elements := []
  overridden := some fun m => m.reproData

def powerEcuComRproeDataEncoder : DataEncoder Parameters := dataEncoder "011" "rproe" []

def constructorEncoders : List (DataEncoder Parameters) := [powerEcuComHeartDataEncoder,powerEcuComGetvDataEncoder]

def initEncoders : List (DataEncoder Parameters) :=
  [powerEcuComTimeDataEncoder,powerEcuComStartDataEncoder,powerEcuComStopDataEncoder,powerEcuComMuteDataEncoder,
    powerEcuComPumpDataEncoder,powerEcuComPbmswDataEncoder,powerEcuComLedcDataEncoder,powerEcuComGResDataEncoder,
    powerEcuComSolswDataEncoder,powerEcuComPdcmdDataEncoder,powerEcuComRprosDataEncoder,powerEcuComRprodDataEncoder,
    powerEcuComRproeDataEncoder,powerEcuComUndckDataEncoder,powerEcuCom12VuDataEncoder,powerEcuCom5Vd3DataEncoder,
    powerEcuCom5Vd4DataEncoder,powerEcuCom5Vd5DataEncoder]

def protocolEncoders : List (DataEncoder Parameters) := constructorEncoders ++ initEncoders

def FrameEncoder.registerAll (fe : FrameEncoder π) (encoders : List (DataEncoder π)) : FrameEncoder π :=
  encoders.foldl (fun fe encoder => (fe.registerDataEncoder encoder).2) fe

def protocolFrameEncoder : FrameEncoder Parameters := FrameEncoder.empty.registerAll protocolEncoders

theorem FrameEncoder.registerAll_encoders {fe : FrameEncoder π} {encoders : List (DataEncoder π)}
    (distinct : ((encoders.reverse ++ fe.encoders).map DataEncoder.packetName).Nodup) :
    (fe.registerAll encoders).encoders = encoders.reverse ++ fe.encoders := by
  induction encoders generalizing fe with
  | nil => rfl
  | cons encoder encoders ih =>
      rw [List.reverse_cons,List.append_assoc,List.singleton_append] at distinct ⊢
      have free : encoder.packetName ∉ fe.encoders.map DataEncoder.packetName := by
        rw [List.map_append,List.map_cons] at distinct
        exact (List.nodup_cons.mp (List.nodup_append.mp distinct).2.1).1
      have registered : (fe.registerDataEncoder encoder).2.encoders = encoder :: fe.encoders := by
        rw [registerDataEncoder,dif_neg free]
      have free : ((encoders.reverse ++ (fe.registerDataEncoder encoder).2.encoders).map DataEncoder.packetName).Nodup := by
        rw [registered]
        exact distinct
      have rest := ih free
      rw [registered] at rest
      exact rest

theorem protocolFrameEncoder_encoders : protocolFrameEncoder.encoders = protocolEncoders.reverse := by
  have distinct : ((protocolEncoders.reverse ++ FrameEncoder.empty.encoders).map DataEncoder.packetName).Nodup := by
    decide +kernel
  exact (FrameEncoder.registerAll_encoders distinct).trans (List.append_nil _)

end HsrbDrivers.PowerEcu
