import HsrbDrivers.Servomotor.ControlTable
import HsrbDrivers.Servomotor.Xmodem

namespace HsrbDrivers.Servomotor
open Session ExxxReprograming CText

def kNetworkTimeout : Int := 10000000
def kNetworkTick : Int := 10000

def repro : ExxxReprograming := ⟨kNetworkTimeout,kNetworkTick⟩

def hasExtension (filename extension : List UInt8) : Prop :=
  filename.length ≥ 5 ∧ filename.drop (filename.length - 4) = extension

instance (filename extension : List UInt8) : Decidable (hasExtension filename extension) := inferInstanceAs (Decidable (_ ∧ _))

-- The image of the firmware file, if it can be opened, and the version of the boot loader that
-- takes it; or what is reported before the program ends.
def readFirmware (filename : List UInt8) (file : Option (List UInt8)) : Except (List UInt8) (List UInt8 × Int) :=
  if hasExtension filename (ascii ".mot") then
    match file with
    | none => .error (filename ++ ascii " not found")
    | some content =>
      let flushData := (getlines [] content).flatten
      if flushData.length < 2 ∨ flushData.getD 0 0 ≠ 0x53 ∨ flushData.getD 1 0 < 0x30 ∨ flushData.getD 1 0 > 0x39 then
        .error (filename ++ ascii " format error")
      else .ok (flushData,1)
  else if hasExtension filename (ascii ".bin") then
    match file with
    | none => .error (filename ++ ascii " not found")
    | some content => .ok (content,0)
  else .error (ascii "Unknown file type : " ++ filename)

theorem admitted_empty_iff {filename flushData : List UInt8} {file : Option (List UInt8)} {version : Int}
    (admitted : readFirmware filename file = .ok (flushData,version)) : flushData = [] ↔ file = some [] := by
  unfold readFirmware at admitted
  split at admitted
  · cases file with
    | none => cases admitted
    | some content =>
        dsimp only at admitted
        split at admitted
        · cases admitted
        · rename_i formed
          cases admitted
          have long := (not_or.mp formed).1
          refine iff_of_false (fun empty => long ?_) (fun none => long ?_)
          · rw [empty]
            exact Nat.zero_lt_two
          · rw [Option.some.inj none]
            exact Nat.zero_lt_two
  · split at admitted
    · cases file with
      | none => cases admitted
      | some content =>
          cases admitted
          simp
    · cases admitted

def Defined {α : Type} (m : Session Exchange α) : Prop := Confined (fun _ => True) m

theorem composed_defined {α : Type} {kind : Exchange → Prop} {m : Session Exchange α} (composed : Composed kind m) : Defined m :=
  composed.confined.weaken fun _ _ => trivial

section
variable (r : ExxxReprograming)

theorem sendFlushBlockData_defined {flushData : List UInt8} {sendPos : Nat} (inside : sendPos ≤ flushData.length)
    (blockNumber : UInt8) : Defined (r.sendFlushBlockData flushData sendPos blockNumber) := by
  have there : ∃ block, flushBlock flushData sendPos = some block := by
    unfold flushBlock
    dsimp only
    split
    · rw [if_pos (by omega)]
      exact ⟨_,rfl⟩
    · rename_i large
      unfold kXmodemDataSize at large ⊢
      rw [if_pos (by omega)]
      exact ⟨_,rfl⟩
  obtain ⟨block,same⟩ := there
  unfold sendFlushBlockData
  rw [same]
  exact composed_defined (sendData_composed r _)

end

def InImage (flushData : List UInt8) (s : Transfer) (_ : List Exchange) : Prop := s.sendPos < flushData.length

section
variable (r : ExxxReprograming) {flushData : List UInt8}

theorem defined_triple {α : Type} {m : Session Exchange α} (defined : Defined m) :
    Triple (fun _ _ => True) (fun _ => True) m fun _ _ => True :=
  Confined.triple defined (fun _ _ _ => trivial) fun _ _ _ _ => trivial

theorem transferEnd_inImage {s : Transfer} {isFlushXmodem : Bool} {error : ErrorCode}
    (onward : isFlushXmodem = true → s.sendPos < flushData.length) :
    Triple (fun _ _ => True) (fun _ => True) (transferEnd s isFlushXmodem error) (Sum.elim (InImage flushData) fun _ _ => True) := by
  unfold transferEnd
  split
  · exact Triple.pure fun _ _ => trivial
  cases isFlushXmodem with
  | false => exact Triple.pure fun _ _ => trivial
  | true =>
      refine Triple.bind (defined_triple (composed_defined (waitNanoSec_resting _))) fun waited => ?_
      split
      · exact Triple.pure fun _ _ => trivial
      · exact Triple.pure fun _ _ => onward rfl

theorem sendBlock_inImage {s : Transfer} (inside : s.sendPos < flushData.length) :
    Triple (fun _ _ => True) (fun _ => True) (do
      let error ← r.sendFlushBlockData flushData s.sendPos s.blockNumber
      transferEnd s (error.value = 0) error) (Sum.elim (InImage flushData) fun _ _ => True) :=
  Triple.bind (defined_triple (sendFlushBlockData_defined r (Nat.le_of_lt inside) s.blockNumber)) fun _ =>
    transferEnd_inImage fun _ => inside

theorem transferNext_inImage (present : flushData ≠ []) (s : Transfer) :
    Triple (fun _ _ => True) (fun _ => True) (r.transferNext flushData s) (Sum.elim (InImage flushData) fun _ _ => True) := by
  unfold transferNext
  dsimp only
  rw [if_neg (fun none => present (List.length_eq_zero_iff.mp none))]
  split
  · exact Triple.bind (defined_triple (composed_defined (sendCommand_composed r _ _))) fun error => transferEnd_inImage fun off => by cases off
  · rename_i more
    exact sendBlock_inImage r (s := ⟨0,_,_,_⟩) (Nat.not_le.mp more)

theorem transferAgain_inImage {s : Transfer} (inside : s.sendPos < flushData.length) :
    Triple (fun _ _ => True) (fun _ => True) (r.transferAgain flushData s) (Sum.elim (InImage flushData) fun _ _ => True) := by
  unfold transferAgain
  dsimp only
  split
  · exact sendBlock_inImage r (s := {s with retryCount := s.retryCount + 1}) inside
  · exact transferEnd_inImage fun _ => inside

theorem transferTurn_inImage (present : flushData ≠ []) (s : Transfer) :
    Triple (fun _ _ => True) (InImage flushData s) (r.transferTurn flushData s) (Sum.elim (InImage flushData) fun _ _ => True) := by
  intro w orderly inside
  refine Triple.bind (defined_triple (composed_defined receiveByte_listening)) (fun result => ?_) w orderly trivial
  cases result with
  | error error =>
      dsimp only
      split
      · exact transferEnd_inImage fun _ => inside
      · exact Triple.pure fun _ _ => trivial
  | ok data =>
      dsimp only
      split
      · exact transferNext_inImage r present s
      split
      · exact transferAgain_inImage r inside
      split
      · exact transferEnd_inImage fun off => by cases off
      · exact transferEnd_inImage fun _ => inside

theorem flushXmodem_defined (present : flushData ≠ []) (script : List Exchange) :
    (r.flushXmodem flushData ⟨[],script⟩).1 ≠ .error .fault := by
  have first : Triple (fun _ _ => True) (fun _ => True) (r.flushXmodem flushData) fun _ _ => True := by
    refine Triple.bind (defined_triple (composed_defined (Composed.loop waitTurn_listening 0))) fun waited => ?_
    split
    · exact Triple.pure fun _ _ => trivial
    refine Triple.bind (defined_triple (sendFlushBlockData_defined r (Nat.zero_le _) 1)) fun sent => ?_
    split
    · exact Triple.pure fun _ _ => trivial
    refine Triple.bind (defined_triple (composed_defined (waitNanoSec_resting _))) fun slept => ?_
    split
    · exact Triple.pure fun _ _ => trivial
    refine (Triple.loop (transferTurn_inImage r present) ⟨0,0,0,1⟩).weaken (fun _ _ => ?_) fun _ _ after => after
    exact List.length_pos_iff.mpr present
  exact (first ⟨[],script⟩ (orderly_nil _) trivial).2.1

end

def acknowledgedOnce : List Exchange :=
  [.received kXmodemNAK,.clock 0,.written 132,.slept kFlushIntervalTime,.received kXmodemACK]

theorem empty_faults : (repro.flushXmodem [] ⟨[],acknowledgedOnce⟩).1 = .error .fault := by decide +kernel

theorem admitted_defined_iff {filename flushData : List UInt8} {file : Option (List UInt8)} {version : Int}
    (admitted : readFirmware filename file = .ok (flushData,version)) :
    (∀ script, (repro.flushXmodem flushData ⟨[],script⟩).1 ≠ .error .fault) ↔ file ≠ some [] := by
  refine Iff.trans ?_ (not_congr (admitted_empty_iff admitted))
  constructor
  · rintro defined rfl
    exact defined acknowledgedOnce empty_faults
  · exact flushXmodem_defined repro

theorem bin_admitted (content : List UInt8) : readFirmware (ascii "a.bin") (some content) = .ok (content,0) := by
  have other : ¬ hasExtension (ascii "a.bin") (ascii ".mot") := by decide +kernel
  have bin : hasExtension (ascii "a.bin") (ascii ".bin") := by decide +kernel
  simp only [readFirmware,if_neg other,if_pos bin]

theorem one_byte_defined : readFirmware (ascii "a.bin") (some [7]) = .ok ([7],0) ∧
    (repro.flushXmodem [7] ⟨[],oneBlock⟩).1 ≠ .error .fault :=
  ⟨bin_admitted [7],(admitted_defined_iff (bin_admitted [7])).mpr (by decide) oneBlock⟩

theorem empty_file_faults : ¬ ∀ filename file flushData version, readFirmware filename file = .ok (flushData,version) →
    ∀ script, (repro.flushXmodem flushData ⟨[],script⟩).1 ≠ .error .fault :=
  fun every => every _ _ _ _ (bin_admitted []) acknowledgedOnce empty_faults

end HsrbDrivers.Servomotor
