import HsrbDrivers.Library.Transition
import HsrbDrivers.PowerEcu.PublishedValues

namespace HsrbDrivers.PowerEcu.InfoCommand
open CText

-- The indices between the entries are reserved.
def kDiagnosticsErrors : List (Nat × String) :=
  [(0,"SPI1 communication error"),
    (1,"A/D converter (control system) error"),
    (2,"A/D converter (drive system) error"),
    (3,"A/D converter (insulation secondary side) error"),
    (4,"12Vd0 error (rise)"),
    (5,"12Vd0 error (fall)"),
    (6,"12Vd0 overcurrent error"),
    (7,"12Vd1 error (rise)"),
    (8,"12Vd1 error (fall)"),
    (9,"12Vd1 overcurrent error"),
    (10,"12Vd2 error (rise)"),
    (11,"12Vd2 error (fall)"),
    (12,"12Vd2 overcurrent error"),
    (13,"12Vd3 error (rise)"),
    (14,"12Vd3 error (fall)"),
    (15,"12Vd3 overcurrent error"),
    (16,"5Vd1 error (rise)"),
    (17,"5Vd1 error (fall)"),
    (18,"5Vd1 overcurrent error"),
    (19,"5Vd2 error (rise)"),
    (20,"5Vd2 error (fall)"),
    (21,"5Vd2 overcurrent error"),
    (22,"5Vd3 error (rise)"),
    (23,"5Vd3 error (fall)"),
    (24,"5Vd3 overcurrent error"),
    (25,"5Vd4 error (rise)"),
    (26,"5Vd4 error (fall)"),
    (27,"5Vd4 overcurrent error"),
    (28,"5Vd5 error (rise)"),
    (29,"5Vd5 error (fall)"),
    (30,"5Vd5 overcurrent error"),
    (31,"5Va error (rise)"),
    (32,"5Va error (fall)"),
    (33,"12Vo1 error (rise)"),
    (34,"12Vo1 error (fall)"),
    (35,"12Vo1 overcurrent error"),
    (36,"12Vo2 error (rise)"),
    (37,"12Vo2 error (fall)"),
    (38,"12Vo2 overcurrent error"),
    (39,"ACDC error (rise)"),
    (40,"ACDC error (fall)"),
    (41,"ACDC overcurrent error"),
    (42,"ACDC current overload Level1"),
    (43,"ACDC current overload Level2"),
    (44,"BATT voltage error (rise: charging)"),
    (45,"BATT voltage error (rise: discharging)"),
    (46,"BATT voltage error (fall)"),
    (47,"BATT discharge current error"),
    (48,"BATT charge current error"),
    (49,"PBM voltage error (rise)"),
    (50,"PBM voltage error (fall)"),
    (51,"PBM overcurrent error"),
    (52,"PBM overcurrent error Level2"),
    (53,"BATT short circuit error"),
    (54,"PBM short circuit error"),
    (55,"Pump output error"),
    (56,"12Vd1 overcurrent error"),
    (57,"12Vd2 overcurrent error"),
    (58,"12Vd3 overcurrent error"),
    (59,"12Vo1 overcurrent error"),
    (60,"12Vo2 overcurrent error"),
    (61,"5Vd1 overcurrent error"),
    (62,"5Vd2 overcurrent error"),
    (63,"5Vd3 overcurrent error"),
    (64,"5Vd4 overcurrent error"),
    (65,"5Vd5 overcurrent error"),
    (66,"PBM overcurrent error"),
    (67,"Precharge error"),
    (68,"12Vd2 fault"),
    (69,"12Vd3 fault"),
    (70,"12Vo2 fault"),
    (71,"12Vd0/Vd1/Vo1 fault"),
    (80,"Regenerative circuit error"),
    (81,"Regenerative circuit overload error"),
    (104,"SPI4 communication error"),
    (105,"I2C communication error"),
    (106,"CPU communication error"),
    (107,"A/D converter (control system) error"),
    (108,"OFF process error 12Vd2 (ACDC power)"),
    (109,"OFF process error 12Vd2 (battery)"),
    (144,"Unable to create log file"),
    (145,"Unable to create folder"),
    (146,"Log recording RTC error"),
    (147,"FAT file system error"),
    (148,"SD card not inserted"),
    (160,"SPI6 communication error"),
    (161,"s1 initial error (initial)"),
    (162,"s2 initial error (initial)"),
    (163,"s3 initial error (initial)"),
    (164,"Gyro Pitch stuck error"),
    (165,"Gyro Roll stuck error"),
    (166,"Gyro Yaw stuck error"),
    (167,"Acceleration X stuck error"),
    (168,"Acceleration Y stuck error"),
    (169,"Acceleration Z stuck error"),
    (170,"Gyro double fault"),
    (171,"Acceleration double fault"),
    (172,"Quaternion reset error"),
    (173,"S1 acceleration posture error (initial)"),
    (174,"S2 acceleration posture error (initial)"),
    (175,"S3 acceleration posture error (initial)"),
    (176,"Ambient temperature error"),
    (177,"Board overheating error 1"),
    (178,"Board overheating error 2"),
    (179,"MCU temperature error"),
    (180,"Temperature sensor comparison error"),
    (208,"Battery communication error"),
    (209,"Battery status error"),
    (210,"Battery discharge temperature error (high temperature)"),
    (211,"Battery discharge temperature error (low temperature)"),
    (212,"Battery temperature comparison error"),
    (213,"Cell charge temperature warning"),
    (224,"Initial check voltage signal ① circuit error"),
    (225,"Initial check voltage signal ② circuit error"),
    (226,"Initial check voltage signal ③ circuit error"),
    (227,"ACDC power A/D converter error"),
    (228,"ACDC power (PCA) communication error"),
    (229,"Power ECU communication error"),
    (230,"Output connector error"),
    (231,"ACDC power operation error"),
    (232,"PWR-003 power MOS error"),
    (233,"DC output overvoltage"),
    (234,"DC output voltage drop"),
    (235,"Output overcurrent"),
    (236,"Connection error"),
    (237,"Current value error"),
    (238,"Robot connection check input voltage drop"),
    (239,"Communication error")]

def diagnosticsError (index : Nat) : Except Thrown String :=
  match kDiagnosticsErrors.lookup index with
  | some text => .ok text
  | none => .error .outOfRange

def nibbleBits (i : Nat) (value : Int) : List Nat :=
  ((List.range 4).filter (value % 2^4).toNat.testBit).map fun j => uint32 (i * 4 + j)

-- The result after the first `i` turns, which take the characters from the last one on.
def parseTurns (diagStatus : List UInt8) : Nat → Except Thrown (List Nat)
  | 0 => .ok []
  | i+1 => do
    let result ← parseTurns diagStatus i
    let value ← stoi 16 ((diagStatus.drop (diagStatus.length - i - 1)).take 1)
    return result ++ nibbleBits i value

def parseDiagStatus (diagStatus : List UInt8) : Except Thrown (List Nat) := parseTurns diagStatus diagStatus.length

def spaced : Nat → List UInt8 → List UInt8
  | _,[] => []
  | 0,c :: rest => 32 :: c :: spaced 3 rest
  | spaceCount+1,c :: rest => c :: spaced spaceCount rest

def printErrors : List Nat → List UInt8 × Except Thrown Unit
  | [] => ([],.ok ())
  | x :: rest => match diagnosticsError x with
    | .error thrown => (ascii "  ",.error thrown)
    | .ok text =>
      let (written,ended) := printErrors rest
      (ascii "  " ++ text.toUTF8.data.toList ++ [10] ++ written,ended)

def printDiagStatus (diagStatus : List UInt8) : List UInt8 × Except Thrown Unit :=
  let shown := ascii "diag_status: " ++ spaced 4 diagStatus ++ [10]
  match parseDiagStatus diagStatus with
  | .error thrown => (shown,.error thrown)
  | .ok errorBits =>
    let (written,ended) := printErrors errorBits
    (shown ++ written,ended)

def IsHex (diagStatus : List UInt8) : Prop := ∀ c ∈ diagStatus, digitValue 16 c ≠ none

instance (diagStatus : List UInt8) : Decidable (IsHex diagStatus) := inferInstanceAs (Decidable (∀ c ∈ diagStatus, _))

def hexDigits (diagStatus : List UInt8) : List Nat := diagStatus.filterMap (digitValue 16)

def hexNumber (diagStatus : List UInt8) : Nat := Numeral.horner 16 (hexDigits diagStatus)

theorem hexDigits_read {diagStatus : List UInt8} (hex : IsHex diagStatus) :
    diagStatus.map (digitValue 16) = (hexDigits diagStatus).map some := by
  induction diagStatus with
  | nil => rfl
  | cons c rest ih =>
      obtain ⟨d,read⟩ := Option.ne_none_iff_exists'.mp (hex c List.mem_cons_self)
      have behind := ih fun e member => hex e (List.mem_cons_of_mem _ member)
      rw [hexDigits,List.filterMap_cons_some read,List.map_cons,List.map_cons,read,behind]
      rfl

theorem hexDigits_length {diagStatus : List UInt8} (hex : IsHex diagStatus) :
    (hexDigits diagStatus).length = diagStatus.length := by
  simpa using (congrArg List.length (hexDigits_read hex)).symm

theorem hexDigits_lt (diagStatus : List UInt8) : ∀ d ∈ hexDigits diagStatus, d < 16 := by
  intro d member
  obtain ⟨c,_,read⟩ := List.mem_filterMap.mp member
  exact digitValue_lt read

theorem turn_character {diagStatus : List UInt8} {i : Nat} (inside : i < diagStatus.reverse.length) :
    (diagStatus.drop (diagStatus.length - i - 1)).take 1 = [diagStatus.reverse[i]] := by
  have place : diagStatus.length - i - 1 < diagStatus.length := by
    rw [List.length_reverse] at inside
    omega
  have same : diagStatus.length - 1 - i = diagStatus.length - i - 1 := Nat.sub_right_comm _ _ _
  rw [List.drop_eq_getElem_cons place,List.take_succ_cons,List.take_zero,List.getElem_reverse]
  simp only [same]

theorem nibbleBits_eq {i d : Nat} (short : i < 2^30) (small : d < 16) :
    nibbleBits i d = ((List.range 4).filter d.testBit).map (4 * i + ·) := by
  have same : ((d : Int) % 2^4).toNat = d := by omega
  rw [nibbleBits,same]
  refine List.map_congr_left fun j member => ?_
  have below := List.mem_range.mp (List.mem_of_mem_filter member)
  rw [uint32,Nat.mod_eq_of_lt (by omega),Nat.mul_comm]

theorem parseTurns_ok {diagStatus : List UInt8} (hex : IsHex diagStatus) {i : Nat} (inside : i ≤ diagStatus.length)
    (short : diagStatus.length ≤ 2^30) : parseTurns diagStatus i = .ok (hexNumber diagStatus % 2^(4*i)).bitIndices := by
  induction i with
  | zero => simp [parseTurns,Nat.mod_one]
  | succ i ih =>
      have read := hexDigits_read hex
      have place : i < diagStatus.reverse.length := by rw [List.length_reverse]; omega
      have place' : i < (hexDigits diagStatus).reverse.length := by rw [List.length_reverse,hexDigits_length hex]; omega
      have digit : digitValue 16 diagStatus.reverse[i] = some (hexDigits diagStatus).reverse[i] := by
        have mirrored : diagStatus.reverse.map (digitValue 16) = (hexDigits diagStatus).reverse.map some := by
          rw [List.map_reverse,List.map_reverse,read]
        simpa using List.getElem_of_eq mirrored (show i < _ by rw [List.length_map]; exact place)
      have value : hexNumber diagStatus / 2^(4*i) % 2^4 = (hexDigits diagStatus).reverse[i] := by
        rw [pow_mul]
        exact Numeral.horner_digit (by decide) (hexDigits_lt diagStatus) place'
      have bits := Numeral.bitIndices_digit (hexNumber diagStatus) (4*i) 4
      rw [parseTurns,ih (by omega),turn_character place]
      simp only [bind,Except.bind,stoi_digit digit (by decide),pure,Except.pure]
      rw [Nat.mul_succ,bits,value,nibbleBits_eq (by omega) (hexDigits_lt _ _ (List.mem_reverse.mp (List.getElem_mem place')))]

theorem parseDiagStatus_hex {diagStatus : List UInt8} (hex : IsHex diagStatus) (short : diagStatus.length ≤ 2^30) :
    parseDiagStatus diagStatus = .ok (hexNumber diagStatus).bitIndices := by
  have below := Numeral.horner_lt (hexDigits diagStatus) (hexDigits_lt diagStatus)
  have power : 16 ^ diagStatus.length = 2 ^ (4 * diagStatus.length) := by rw [pow_mul]; rfl
  rw [hexDigits_length hex,power] at below
  rw [parseDiagStatus,parseTurns_ok hex (Nat.le_refl _) short,hexNumber,Nat.mod_eq_of_lt below]

theorem parseTurns_hex {diagStatus : List UInt8} {i : Nat} (inside : i ≤ diagStatus.length) {result : List Nat}
    (parsed : parseTurns diagStatus i = .ok result) : ∀ j (turn : j < diagStatus.reverse.length), j < i →
      digitValue 16 diagStatus.reverse[j] ≠ none := by
  induction i generalizing result with
  | zero =>
      intro j turn before
      omega
  | succ i ih =>
      intro j turn before other
      obtain ⟨first,earlier,turned⟩ := except_bind_ok.mp parsed
      obtain ⟨value,taken,_⟩ := except_bind_ok.mp turned
      rcases Nat.lt_succ_iff_lt_or_eq.mp before with early | rfl
      · exact ih (by omega) earlier j turn early other
      · rw [turn_character turn,stoi_other other] at taken
        cases taken

theorem parseDiagStatus_isHex {diagStatus : List UInt8} {result : List Nat}
    (parsed : parseDiagStatus diagStatus = .ok result) : IsHex diagStatus := by
  intro c member
  obtain ⟨j,turn,rfl⟩ := List.mem_iff_getElem.mp (List.mem_reverse.mpr member)
  exact parseTurns_hex (Nat.le_refl _) parsed j turn (by rwa [List.length_reverse] at turn)

theorem printErrors_ok_iff (errorBits : List Nat) :
    (printErrors errorBits).2 = .ok () ↔ ∀ x ∈ errorBits, kDiagnosticsErrors.lookup x ≠ none := by
  induction errorBits with
  | nil => simp [printErrors]
  | cons x rest ih =>
      rw [printErrors,List.forall_mem_cons,← ih,diagnosticsError]
      cases kDiagnosticsErrors.lookup x with
      | none => simp
      | some text => simp

def afterAll (datas : List (List UInt8)) : Ecu1 := datas.foldl (fun m data => (Ecu1.decoder.decode data m).2) Ecu1.initial

def Published (diagStatus : List UInt8) : Prop :=
  ∃ datas data m, Ecu1.decoder.decode data (afterAll datas) = (.success,m) ∧ m.out.diagStatus.data = diagStatus

theorem decodeElements_append {before after : List (ElementDecoder σ)} {data : List UInt8} {m m' : σ}
    (decoded : DataDecoder.decodeElements (before ++ after) data m = (true,m')) :
    ∃ rest middle, DataDecoder.decodeElements after rest middle = (true,m') := by
  induction before generalizing data m with
  | nil => exact ⟨data,m,decoded⟩
  | cons e before ih =>
      simp only [List.cons_append,DataDecoder.decodeElements] at decoded
      cases split : data.dropWhile (· ≠ 44) with
      | nil =>
          rw [split] at decoded
          cases decoded
      | cons comma next =>
          rw [split] at decoded
          cases step : e.decode (data.takeWhile (· ≠ 44)) m with
          | mk ret inner =>
              rw [step] at decoded
              cases ret with
              | false => cases decoded
              | true => exact ih decoded

theorem behind_diagStatus : ∀ e ∈ Ecu1.rawElements.drop 5, ∀ element m, (e.decode element m).2.diagStatus = m.diagStatus := by
  repeat' refine List.forall_mem_cons.mpr ⟨fun element m => assign_view _ (fun _ _ => rfl) m _,?_⟩
  exact List.forall_mem_nil _

theorem string_decoded {value : Ref σ StdString} (written : ∀ v m, value.read (value.write v m) = v) {length : Nat}
    (short : length < 2^31) {element : List UInt8} {m m' : σ}
    (decoded : ElementStringDecoder.decode value length element m = (true,m')) : (value.read m').data.length = length := by
  have whole : int32 length = length := by
    rw [int32,Int.bmod_def]
    split <;> omega
  unfold ElementStringDecoder.decode ElementStringDecoder.parse at decoded
  split at decoded
  · cases decoded
  · rename_i accepted
    cases decoded
    rw [written]
    change element.length = length
    rw [whole] at accepted
    omega

theorem rawElements_diagStatus {data : List UInt8} {m m' : Ecu1.RawData}
    (decoded : DataDecoder.decodeElements Ecu1.rawElements data m = (true,m')) : m'.diagStatus.data.length = 65 := by
  let value : Ref Ecu1.RawData StdString := ⟨fun m => m.diagStatus,fun v m => {m with diagStatus := v}⟩
  have split : Ecu1.rawElements = Ecu1.rawElements.take 4 ++ elementStringDecoder value 65 :: Ecu1.rawElements.drop 5 := rfl
  rw [split] at decoded
  obtain ⟨rest,middle,taken⟩ := decodeElements_append decoded
  rw [DataDecoder.decodeElements] at taken
  cases comma : rest.dropWhile (· ≠ 44) with
  | nil =>
      rw [comma] at taken
      cases taken
  | cons first next =>
      rw [comma] at taken
      cases step : (elementStringDecoder value 65).decode (rest.takeWhile (· ≠ 44)) middle with
      | mk ret inner =>
          rw [step] at taken
          cases ret with
          | false => cases taken
          | true =>
              have kept := decodeElements_view (fun m : Ecu1.RawData => m.diagStatus) behind_diagStatus next inner
              simp only [taken] at kept
              rw [kept]
              exact string_decoded (show ∀ v m, value.read (value.write v m) = v from fun _ _ => rfl) (show 65 < 2^31 by decide) step

theorem refillBehindLetter_roomy {out raw : StdString} (roomy : Ecu1.kEcu1DiagStatusLength ≤ out.capacity) :
    Ecu1.kEcu1DiagStatusLength ≤ (Ecu1.refillBehindLetter out raw).capacity ∧
      (raw.data.length = 65 → (Ecu1.refillBehindLetter out raw).data.length = 64) := by
  unfold Ecu1.kEcu1DiagStatusLength at roomy ⊢
  unfold Ecu1.refillBehindLetter
  split
  · refine ⟨Nat.le_trans roomy (Nat.le_max_left _ _),fun whole => ?_⟩
    change raw.data.tail.length = 64
    rw [List.length_tail,whole]
  · rename_i full
    refine ⟨roomy,fun whole => absurd ?_ full⟩
    rw [Ecu1.sizeLessOne,whole]
    exact Nat.le_trans (by decide) roomy

theorem rawPart_lawful : Ecu1.rawPart.Lawful := ⟨fun _ _ => rfl,fun _ => rfl,fun _ _ _ => rfl⟩

theorem decode_diagStatus {data : List UInt8} {m m' : Ecu1} (roomy : Ecu1.kEcu1DiagStatusLength ≤ m.out.diagStatus.capacity)
    {code : ErrorCode} (decoded : Ecu1.decoder.decode data m = (code,m')) :
    Ecu1.kEcu1DiagStatusLength ≤ m'.out.diagStatus.capacity ∧ (code = .success → m'.out.diagStatus.data.length = 64) := by
  have elements := decodeElements_within rawPart_lawful Ecu1.rawElements data m
  have listed : Ecu1.decoder.elements = Ecu1.rawElements.map (ElementDecoder.within Ecu1.rawPart) := rfl
  rw [DataDecoder.decode,listed,elements] at decoded
  cases raw : DataDecoder.decodeElements Ecu1.rawElements data (Ecu1.rawPart.read m) with
  | mk ret inner =>
      rw [raw] at decoded
      cases ret with
      | false =>
          cases decoded
          exact ⟨roomy,fun failed => by cases failed⟩
      | true =>
          cases decoded
          obtain ⟨room,filled⟩ := @refillBehindLetter_roomy _ inner.diagStatus roomy
          exact ⟨room,fun _ => filled (rawElements_diagStatus raw)⟩

theorem afterAll_roomy (datas : List (List UInt8)) : Ecu1.kEcu1DiagStatusLength ≤ (afterAll datas).out.diagStatus.capacity := by
  induction datas using List.reverseRecOn with
  | nil => decide
  | append_singleton datas data ih =>
      rw [afterAll,List.foldl_append,List.foldl_cons,List.foldl_nil]
      exact (decode_diagStatus ih Prod.mk.eta.symm).1

theorem published_length {diagStatus : List UInt8} (published : Published diagStatus) : diagStatus.length = 64 := by
  obtain ⟨datas,data,m,decoded,rfl⟩ := published
  exact (decode_diagStatus (afterAll_roomy datas) decoded).2 rfl

-- The command ends normally, and where it shows a number the errors it looks up are the
-- set bits of the number from the lowest on.
def ShowsErrors (diagStatus : List UInt8) : Prop :=
  (printDiagStatus diagStatus).2 = .ok () ∧ (IsHex diagStatus → parseDiagStatus diagStatus = .ok (hexNumber diagStatus).bitIndices)

theorem lookup_ne_none_iff (index : Nat) :
    kDiagnosticsErrors.lookup index ≠ none ↔ index ∈ kDiagnosticsErrors.map Prod.fst := by
  rw [ne_eq,List.lookup_eq_none_iff,List.mem_map]
  constructor
  · intro known
    by_contra unknown
    refine known fun entry member => bne_iff_ne.mpr fun same => unknown ⟨entry,member,same.symm⟩
  · rintro ⟨entry,member,rfl⟩ unknown
    exact absurd rfl (bne_iff_ne.mp (unknown entry member))

theorem diag_status_shown_iff {diagStatus : List UInt8} (published : Published diagStatus) : ShowsErrors diagStatus ↔
    IsHex diagStatus ∧ ∀ k, (hexNumber diagStatus).testBit k = true → k ∈ kDiagnosticsErrors.map Prod.fst := by
  have short : diagStatus.length ≤ 2^30 := by
    rw [published_length published]
    decide
  constructor
  · rintro ⟨normal,_⟩
    unfold printDiagStatus at normal
    cases parsed : parseDiagStatus diagStatus with
    | error thrown =>
        rw [parsed] at normal
        cases normal
    | ok errorBits =>
        rw [parsed] at normal
        have hex := parseDiagStatus_isHex parsed
        cases parsed.symm.trans (parseDiagStatus_hex hex short)
        refine ⟨hex,fun k set => (lookup_ne_none_iff k).mp ?_⟩
        exact (printErrors_ok_iff _).mp normal k (Nat.mem_bitIndices.mpr set)
  · rintro ⟨hex,known⟩
    have parsed := parseDiagStatus_hex hex short
    refine ⟨?_,fun _ => parsed⟩
    simp only [printDiagStatus,parsed]
    refine (printErrors_ok_iff _).mpr fun k member => (lookup_ne_none_iff k).mpr ?_
    exact known k (Nat.mem_bitIndices.mp member)

def zeros (count : Nat) : List UInt8 := List.replicate count 48

def ecu1Data (diagStatus : List UInt8) : List UInt8 :=
  ([zeros 10,zeros 14,104 :: zeros 2,104 :: zeros 16,104 :: diagStatus] ++ List.replicate 4 (32 :: zeros 5) ++
    [32 :: zeros 3,104 :: zeros 4,zeros 5,104 :: zeros 4,zeros 3,104 :: zeros 2,104 :: zeros 16] ++
    List.replicate 10 (32 :: zeros 10) ++ [104 :: zeros 2]).flatMap (· ++ [44])

theorem published_ecu1Data {diagStatus : List UInt8}
    (decoded : (Ecu1.decoder.decode (ecu1Data diagStatus) Ecu1.initial).map id (fun m => m.out.diagStatus.data) =
      (.success,diagStatus)) : Published diagStatus := by
  refine ⟨[],ecu1Data diagStatus,?_⟩
  have start : afterAll [] = Ecu1.initial := rfl
  rw [start]
  generalize Ecu1.decoder.decode (ecu1Data diagStatus) Ecu1.initial = result at decoded
  obtain ⟨code,m⟩ := result
  cases decoded
  exact ⟨m,rfl,rfl⟩

theorem single_error_shown : ShowsErrors (zeros 63 ++ [49]) := by
  refine (diag_status_shown_iff (published_ecu1Data ?_)).mpr ⟨by decide +kernel,fun k set => ?_⟩
  · decide +kernel
  · have one : hexNumber (zeros 63 ++ [49]) = 1 := by decide +kernel
    rw [one,Nat.testBit_one_eq_true_iff_self_eq_zero] at set
    rw [set]
    decide

theorem diag_status_throws :
    (∃ diagStatus, Published diagStatus ∧ IsHex diagStatus ∧ (printDiagStatus diagStatus).2 = .error .outOfRange) ∧
      ∃ diagStatus, Published diagStatus ∧ (printDiagStatus diagStatus).2 = .error .invalidArgument := by
  refine ⟨⟨zeros 45 ++ 49 :: zeros 18,published_ecu1Data ?_,?_,?_⟩,⟨zeros 63 ++ [71],published_ecu1Data ?_,?_⟩⟩
  all_goals decide +kernel

end HsrbDrivers.PowerEcu.InfoCommand
