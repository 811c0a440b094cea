import HsrbDrivers.Library.CText
import HsrbDrivers.Library.Placement

namespace HsrbDrivers.Servomotor
open CText Placement

inductive ValueType where
  | uint8
  | int8
  | uint16
  | int16
  | uint32
  | int32
  | uint64
  | int64
  | float
  | double
deriving DecidableEq,Repr

def ValueType.size : ValueType → Nat
  | .uint8 => 1
  | .int8 => 1
  | .uint16 => 2
  | .int16 => 2
  | .uint32 => 4
  | .int32 => 4
  | .uint64 => 8
  | .int64 => 8
  | .float => 4
  | .double => 8

structure ControlTableItemDescriptor where
  type : ValueType
  initialAddress : Nat
  finalAddress : Nat
  itemAttribute : List UInt8
  coefficientMks : Float
  numBytes : Nat

-- The constructor has a table of sizes of its own.
def ControlTableItemDescriptor.construct (type : ValueType) (initialAddress : Nat) (itemAttribute : List UInt8)
    (coefficientMks : Float) : ControlTableItemDescriptor :=
  let numBytes := match type with
    | .uint8 | .int8 => 1
    | .uint16 | .int16 => 2
    | .uint32 | .int32 | .float => 4
    | .uint64 | .int64 | .double => 8
  ⟨type,initialAddress,(initialAddress + numBytes) % 2^16,itemAttribute,coefficientMks,numBytes⟩

inductive LoadError where
  | success
  | fileOpenError
  | columnSizeError
  | alreadyRecorded
  | badType
deriving DecidableEq,Repr

structure ControlTable where
  md5sum : List UInt8
  descriptors : List (List UInt8 × ControlTableItemDescriptor)

-- What the table rests on: splitting a line into its fields, which throws on a broken
-- escape, reading a number, and the hash of a file.
structure Csv where
  tokenize : List UInt8 → Option (List (List UInt8))
  lexicalCast : List UInt8 → Option Float
  md5 : List UInt8 → List UInt8

-- `std::getline` until it fails: a last line counts when it has a character.
def getlines : List UInt8 → List UInt8 → List (List UInt8)
  | line,[] => if line = [] then [] else [line]
  | line,c :: rest => if c = 10 then line :: getlines [] rest else getlines (line ++ [c]) rest

def parseType (typeStr : List UInt8) : Option (ValueType × Nat) :=
  if typeStr = ascii "uint8_t" then some (.uint8,1)
  else if typeStr = ascii "int8_t" then some (.int8,1)
  else if typeStr = ascii "uint16_t" then some (.uint16,2)
  else if typeStr = ascii "int16_t" then some (.int16,2)
  else if typeStr = ascii "uint32_t" then some (.uint32,4)
  else if typeStr = ascii "int32_t" then some (.int32,4)
  else if typeStr = ascii "uint64_t" then some (.uint64,8)
  else if typeStr = ascii "int64_t" then some (.int64,8)
  else if typeStr = ascii "float" then some (.float,4)
  else if typeStr = ascii "double" then some (.double,8)
  else none

namespace ControlTable

def fresh : ControlTable := ⟨List.replicate 16 0,[]⟩

def referItemDescriptor (t : ControlTable) (entry : List UInt8) : Option ControlTableItemDescriptor :=
  t.descriptors.lookup entry

-- One line, with the address behind the rows before it; `none` when the exception of the
-- tokenizer leaves the function.
def processLine (csv : Csv) (line : List UInt8) (lastAddress : Nat) (t : ControlTable) :
    Option (LoadError × Nat × ControlTable) := do
  let tokens ← csv.tokenize line
  if tokens.length ≠ 12 then return (.columnSizeError,lastAddress,t) else
  let typeStr := tokens.getD 1 []
  let name := tokens.getD 2 []
  let mksStr := tokens.getD 5 []
  let attributeStr := tokens.getD 6 []
  if (t.referItemDescriptor name).isSome then return (.alreadyRecorded,lastAddress,t) else
  match parseType typeStr with
  | none => return (.badType,lastAddress,t)
  | some (type,numBytes) =>
    let coeffMks := (csv.lexicalCast mksStr).getD 1.0
    let descriptor := ControlTableItemDescriptor.construct type lastAddress attributeStr coeffMks
    return (.success,(lastAddress + numBytes) % 2^16,{t with descriptors := t.descriptors ++ [(name,descriptor)]})

def errorString : LoadError → String
  | .columnSizeError => "(column size error)"
  | .alreadyRecorded => "(duplicate entry)"
  | .badType => "(invalid value type)"
  | _ => "(invalid error)"

def loadLines (csv : Csv) : List (List UInt8) → Nat → Nat → ControlTable →
    Option (LoadError × Option (String × Nat) × ControlTable)
  | [],_,_,t => some (.success,none,t)
  | line :: lines,lastAddress,numLine,t => do
    let (error,lastAddress,t) ← processLine csv line lastAddress t
    if error ≠ .success then return (error,some (errorString error,numLine),t) else
    loadLines csv lines lastAddress ((numLine + 1) % 2^32) t

-- `content` is what the file holds, if it can be opened. Its first line is a comment.
def load (csv : Csv) (t : ControlTable) (content : Option (List UInt8)) :
    Option (LoadError × Option (String × Nat) × ControlTable) :=
  match content with
  | none => some (.fileOpenError,none,t)
  | some message => loadLines csv (getlines [] message).tail 0 0 {t with md5sum := csv.md5 message}

end ControlTable

def rowBytes (csv : Csv) (line : List UInt8) : Nat :=
  match csv.tokenize line with
  | none => 0
  | some tokens => match parseType (tokens.getD 1 []) with
    | none => 0
    | some (type,_) => type.size

def tableBytes (csv : Csv) (content : List UInt8) : Nat := ((getlines [] content).tail.map (rowBytes csv)).sum

def ControlTableItemDescriptor.block (d : ControlTableItemDescriptor) : Block := ⟨d.initialAddress,d.finalAddress,d.type.size⟩

-- Each entry begins at the sum of the sizes before it and ends behind its own, and no two
-- of them overlap.
def ControlTable.LaidOut (t : ControlTable) : Prop :=
  (∀ before entry after, t.descriptors = before ++ entry :: after →
    entry.2.initialAddress = (before.map fun other => other.2.type.size).sum ∧
      entry.2.finalAddress = entry.2.initialAddress + entry.2.type.size) ∧
  t.descriptors.Pairwise fun one two => one.2.finalAddress ≤ two.2.initialAddress

theorem construct_numBytes (type : ValueType) (initialAddress : Nat) (itemAttribute : List UInt8) (coefficientMks : Float) :
    (ControlTableItemDescriptor.construct type initialAddress itemAttribute coefficientMks).numBytes = type.size := by
  cases type <;> rfl

theorem ite_some_cases {p : Prop} [Decidable p] {a r : α} {others : Option α}
    (found : (if p then some a else others) = some r) : a = r ∨ others = some r := by
  split at found
  · exact .inl (Option.some.inj found)
  · exact .inr found

theorem parseType_size {typeStr : List UInt8} {type : ValueType} {numBytes : Nat}
    (parsed : parseType typeStr = some (type,numBytes)) : numBytes = type.size := by
  unfold parseType at parsed
  repeat
    rcases ite_some_cases parsed with same | parsed
    · cases same
      rfl
  cases parsed

theorem construct_block (type : ValueType) (initialAddress : Nat) (itemAttribute : List UInt8) (coefficientMks : Float) :
    (ControlTableItemDescriptor.construct type initialAddress itemAttribute coefficientMks).block =
      ⟨initialAddress,(initialAddress + type.size) % 2^16,type.size⟩ := by
  cases type <;> rfl

namespace ControlTable

theorem processLine_success {csv : Csv} {line : List UInt8} {lastAddress next : Nat} {t u : ControlTable}
    (taken : processLine csv line lastAddress t = some (.success,next,u)) :
    ∃ name descriptor, u = {t with descriptors := t.descriptors ++ [(name,descriptor)]} ∧
      descriptor.block = ⟨lastAddress,next,rowBytes csv line⟩ ∧ next = (lastAddress + rowBytes csv line) % 2^16 := by
  unfold processLine at taken
  obtain ⟨tokens,tokenized,taken⟩ := Option.bind_eq_some_iff.mp taken
  split at taken
  · cases taken
  dsimp only at taken
  split at taken
  · cases taken
  cases parsed : parseType (tokens.getD 1 []) with
  | none =>
      rw [parsed] at taken
      cases taken
  | some found =>
      obtain ⟨type,numBytes⟩ := found
      have bytes : rowBytes csv line = type.size := by rw [rowBytes,tokenized]; dsimp only; rw [parsed]
      rw [parsed,parseType_size parsed] at taken
      cases taken
      rw [bytes]
      exact ⟨_,_,rfl,construct_block _ _ _ _,rfl⟩

theorem loadLines_success {csv : Csv} {lines : List (List UInt8)} {lastAddress numLine : Nat} {t u : ControlTable}
    {report : Option (String × Nat)} (loaded : loadLines csv lines lastAddress numLine t = some (.success,report,u)) :
    ∃ rows, u = {t with descriptors := t.descriptors ++ rows} ∧
      Wrapping (2^16) lastAddress (rows.map fun row => row.2.block) ∧
      rows.map (fun row => row.2.type.size) = lines.map (rowBytes csv) := by
  induction lines generalizing lastAddress numLine t with
  | nil =>
      cases loaded
      exact ⟨[],by rw [List.append_nil],trivial,rfl⟩
  | cons line lines ih =>
      obtain ⟨⟨error,next,after⟩,taken,loaded⟩ := Option.bind_eq_some_iff.mp loaded
      by_cases fine : error = .success
      · subst fine
        obtain ⟨name,descriptor,rfl,block,step⟩ := processLine_success taken
        obtain ⟨rows,rfl,wrapping,sizes⟩ := ih loaded
        refine ⟨(name,descriptor) :: rows,by rw [← List.append_cons],?_,?_⟩
        · rw [List.map_cons,block]
          refine ⟨rfl,step,?_⟩
          rw [← step]
          exact wrapping
        · have size : descriptor.type.size = rowBytes csv line := congrArg Block.size block
          rw [List.map_cons,List.map_cons,sizes,size]
      · simp only [ne_eq,fine,not_false_eq_true,if_true] at loaded
        cases loaded
        exact absurd rfl fine

theorem total_blocks (rows : List (List UInt8 × ControlTableItemDescriptor)) :
    total (rows.map fun row => row.2.block) = (rows.map fun row => row.2.type.size).sum := by
  rw [total,List.map_map]
  rfl

theorem laidOut_consecutive (t : ControlTable) :
    t.LaidOut ↔ Consecutive 0 (t.descriptors.map fun entry => entry.2.block) := by
  constructor
  · rintro ⟨placed,_⟩
    refine consecutive_of_split fun before block after split => ?_
    obtain ⟨front,entry,back,same,rfl,rfl,rfl⟩ : ∃ front entry back, t.descriptors = front ++ entry :: back ∧
        front.map (fun entry => entry.2.block) = before ∧ entry.2.block = block ∧
        back.map (fun entry => entry.2.block) = after := by
      obtain ⟨front,others,same,frontEq,rest⟩ := List.map_eq_append_iff.mp split
      obtain ⟨entry,back,rfl,blockEq,backEq⟩ := List.map_eq_cons_iff.mp rest
      exact ⟨front,entry,back,same,frontEq,blockEq,backEq⟩
    rw [Nat.zero_add,total_blocks]
    exact placed front entry back same
  · intro consecutive
    refine ⟨fun before entry after split => ?_,List.pairwise_map.mp (consecutive_disjoint consecutive)⟩
    rw [split,List.map_append,List.map_cons] at consecutive
    have placed := consecutive_split consecutive
    rw [Nat.zero_add,total_blocks] at placed
    exact placed

theorem loadLines_laidOut {csv : Csv} {lines : List (List UInt8)} {numLine : Nat} {t u : ControlTable}
    {report : Option (String × Nat)} (none : t.descriptors = [])
    (loaded : loadLines csv lines 0 numLine t = some (.success,report,u)) :
    u.LaidOut ↔ (lines.map (rowBytes csv)).sum ≤ 65535 := by
  obtain ⟨rows,rfl,wrapping,sizes⟩ := loadLines_success loaded
  have below : (0 : Nat) < 2^16 := by decide
  rw [laidOut_consecutive,none,List.nil_append,consecutive_iff wrapping below,total_blocks,sizes,Nat.zero_add]
  exact Nat.lt_succ_iff

theorem layout_iff (csv : Csv) (content : List UInt8) (t : ControlTable) (report : Option (String × Nat))
    (loaded : load csv fresh (some content) = some (.success,report,t)) : t.LaidOut ↔ tableBytes csv content ≤ 65535 :=
  loadLines_laidOut rfl loaded

end ControlTable

def splitFields : List UInt8 → List (List UInt8)
  | [] => [[]]
  | c :: rest => if c = 44 then [] :: splitFields rest else (c :: (splitFields rest).headD []) :: (splitFields rest).tail

def plainCsv (digest : List UInt8) : Csv := ⟨fun line => some (splitFields line),fun _ => none,fun _ => digest⟩

def smallFile : List UInt8 := ascii "type\n,uint16_t,speed,,,,order,,,,,\n,double,gain,,,,param,,,,,\n"

def smallFileMd5 : List UInt8 := [43,113,136,244,242,209,112,184,156,6,80,127,156,210,106,174]

theorem smallFile_laidOut :
    ∃ t, ControlTable.load (plainCsv smallFileMd5) .fresh (some smallFile) = some (.success,none,t) ∧ t.LaidOut := by
  have taken : (ControlTable.load (plainCsv smallFileMd5) .fresh (some smallFile)).map (fun result => (result.1,result.2.1)) =
      some (.success,none) := by decide +kernel
  obtain ⟨⟨error,report,t⟩,loaded,same⟩ := Option.map_eq_some_iff.mp taken
  cases same
  exact ⟨t,loaded,(ControlTable.layout_iff _ _ t none loaded).mpr (by decide +kernel)⟩

theorem getlines_line {line : List UInt8} (one : 10 ∉ line) (front rest : List UInt8) :
    getlines front (line ++ 10 :: rest) = (front ++ line) :: getlines [] rest := by
  induction line generalizing front with
  | nil => simp [getlines]
  | cons c line ih =>
      have other : c ≠ 10 := (List.ne_of_not_mem_cons one).symm
      rw [List.cons_append,getlines,if_neg other,ih (List.not_mem_of_not_mem_cons one),List.append_assoc]
      rfl

theorem splitFields_field {field : List UInt8} (one : 44 ∉ field) (rest : List UInt8) :
    splitFields (field ++ 44 :: rest) = field :: splitFields rest := by
  induction field with
  | nil => rfl
  | cons c field ih =>
      have other : c ≠ 44 := (List.ne_of_not_mem_cons one).symm
      rw [List.cons_append,splitFields,if_neg other,ih (List.not_mem_of_not_mem_cons one)]
      rfl

def rowName (k : Nat) : List UInt8 := List.replicate k 120

def doubleRow (k : Nat) : List UInt8 := 44 :: (ascii "double" ++ 44 :: (rowName k ++ 44 :: List.replicate 8 44))

def doubleFile (count : Nat) : List UInt8 := 10 :: ((List.range count).map fun k => doubleRow k ++ [10]).flatten

def doubleFileMd5 : List UInt8 := [113,85,203,32,170,205,116,126,218,194,10,205,91,254,218,235]

theorem comma_rowName (k : Nat) (c : UInt8) (other : c ≠ 120) : c ∉ rowName k :=
  fun member => other (List.eq_of_mem_replicate member)

theorem doubleRow_fields (k : Nat) : splitFields (doubleRow k) = [] :: ascii "double" :: rowName k :: List.replicate 9 [] := by
  have noComma : 44 ∉ ascii "double" := by decide +kernel
  have double := splitFields_field noComma (rowName k ++ 44 :: List.replicate 8 44)
  have name := splitFields_field (comma_rowName k 44 (by decide)) (List.replicate 8 44)
  rw [doubleRow,splitFields,if_pos rfl,double,name]
  rfl

theorem doubleRow_line (k : Nat) : 10 ∉ doubleRow k := by
  unfold doubleRow
  simp only [List.mem_cons,List.mem_append,List.mem_replicate,comma_rowName k 10 (by decide)]
  decide +kernel

theorem doubleFile_lines (count : Nat) : getlines [] (doubleFile count) = [] :: (List.range count).map doubleRow := by
  have lines : ∀ ks : List Nat, getlines [] (ks.map fun k => doubleRow k ++ [10]).flatten = ks.map doubleRow := by
    intro ks
    induction ks with
    | nil => rfl
    | cons k ks ih =>
        rw [List.map_cons,List.flatten_cons,List.append_assoc,List.singleton_append,getlines_line (doubleRow_line k),ih]
        rfl
  exact congrArg _ (lines _)

theorem doubleRow_taken (digest : List UInt8) {k : Nat} (lastAddress : Nat) {t : ControlTable}
    (absent : t.referItemDescriptor (rowName k) = none) :
    ∃ descriptor, ControlTable.processLine (plainCsv digest) (doubleRow k) lastAddress t =
      some (.success,(lastAddress + 8) % 2^16,{t with descriptors := t.descriptors ++ [(rowName k,descriptor)]}) := by
  have tokens : (plainCsv digest).tokenize (doubleRow k) = some ([] :: ascii "double" :: rowName k :: List.replicate 9 []) :=
    congrArg some (doubleRow_fields k)
  have double : parseType (ascii "double") = some (.double,8) := by decide +kernel
  refine ⟨.construct .double lastAddress [] 1.0,?_⟩
  unfold ControlTable.processLine
  rw [tokens]
  simp only [Option.bind_eq_bind,Option.bind_some,List.getD_cons_succ,List.getD_cons_zero,List.length_cons,
    List.length_replicate,absent,double]
  rfl

theorem doubleRows_load (digest : List UInt8) (ks : List Nat) (lastAddress numLine : Nat) (t : ControlTable) (different : ks.Nodup)
    (fresh : ∀ k ∈ ks, t.referItemDescriptor (rowName k) = none) :
    ∃ u, ControlTable.loadLines (plainCsv digest) (ks.map doubleRow) lastAddress numLine t = some (.success,none,u) := by
  induction ks generalizing lastAddress numLine t with
  | nil => exact ⟨t,rfl⟩
  | cons k ks ih =>
      obtain ⟨unique,different⟩ := List.nodup_cons.mp different
      obtain ⟨descriptor,taken⟩ := doubleRow_taken digest lastAddress (fresh k List.mem_cons_self)
      rw [List.map_cons,ControlTable.loadLines,taken]
      refine ih _ _ _ different fun other member => ?_
      have sizes : rowName other ≠ rowName k := by
        intro same
        have length : other = k := by simpa [rowName] using congrArg List.length same
        exact unique (length ▸ member)
      have differs : (rowName other == rowName k) = false := beq_eq_false_iff_ne.mpr sizes
      have before := fresh other (List.mem_cons_of_mem _ member)
      unfold ControlTable.referItemDescriptor at before ⊢
      rw [List.lookup_append,before]
      simp [List.lookup_cons,differs]

theorem doubleFile_loads (digest : List UInt8) (count : Nat) :
    ∃ t, ControlTable.load (plainCsv digest) .fresh (some (doubleFile count)) = some (.success,none,t) ∧
      (t.LaidOut ↔ count * 8 ≤ 65535) := by
  obtain ⟨t,loaded⟩ := doubleRows_load digest (List.range count) 0 0 {ControlTable.fresh with md5sum := digest}
    List.nodup_range (fun _ _ => rfl)
  have bytes : rowBytes (plainCsv digest) ∘ doubleRow = fun _ => 8 := by
    funext k
    have double : parseType (ascii "double") = some (.double,8) := by decide +kernel
    simp only [Function.comp,rowBytes,plainCsv,doubleRow_fields,List.getD_cons_succ,List.getD_cons_zero,double]
    rfl
  refine ⟨t,?_,?_⟩
  · rw [ControlTable.load,doubleFile_lines]
    exact loaded
  · rw [ControlTable.loadLines_laidOut rfl loaded,List.map_map,bytes,List.map_const',List.sum_replicate,List.length_range]
    rfl

theorem doubleFile_wraps :
    ∃ t, ControlTable.load (plainCsv doubleFileMd5) .fresh (some (doubleFile 8192)) = some (.success,none,t) ∧ ¬ t.LaidOut := by
  obtain ⟨t,loaded,laid⟩ := doubleFile_loads doubleFileMd5 8192
  exact ⟨t,loaded,fun holds => absurd (laid.mp holds) (by decide)⟩

end HsrbDrivers.Servomotor
