import HsrbDrivers.Library.Transition
import HsrbDrivers.Servomotor.Answers
import HsrbDrivers.Servomotor.Payloads
import HsrbDrivers.Servomotor.TableSearch
import HsrbDrivers.Servomotor.Conversion

namespace HsrbDrivers.Servomotor
open Bytes CText ExxxProtocol

def ErrorCode.messageSize : ErrorCode := .system 90

def kControlTableHashByte : Nat := 16
def kFirmwareHashByte : Nat := 20

-- What an operation meets: the error of the system that its `Send` ends with, and the clock and the turns of its
-- `Receive`.
structure Transaction where
  errno : Int
  start : Int
  turns : List Turn

def Transaction.sent (t : Transaction) : ErrorCode := .system t.errno

structure Link where
  network : ExxxNetwork
  buffer : ReceiveBuffer

def ErrorCode.isSystem (error : ErrorCode) : Prop := error.category = .system ∧ error.value ≠ 0

instance (error : ErrorCode) : Decidable error.isSystem := by unfold ErrorCode.isSystem; infer_instance

namespace Link

def receive (l : Link) (id : UInt8) (t : Transaction) : Except Halt (ErrorCode × Link) :=
  match l.network.receive id l.buffer.capacity l.buffer.bytes t.start t.turns with
  | none => .error .unfinished
  | some received =>
    .ok (received.code,⟨{l.network with parser := received.parser},{l.buffer with bytes := received.dataOut}⟩)

-- `Ping`, `SyncParam` and `AvagoAvePos`, which differ in the instruction only: an answer is a success,
-- whatever error status it tells.
def transact (l : Link) (id : UInt8) (t : Transaction) : Except Halt (ErrorCode × Link) :=
  if t.sent.isSystem then .ok (t.sent,l) else do
  let (error,l) ← l.receive id t
  return (if error.isSystem then error else .success,l)

def readHash (l : Link) (id : UInt8) (t : Transaction) (hashes : List UInt8 × List UInt8) :
    Except Halt (ErrorCode × (List UInt8 × List UInt8) × Link) :=
  if t.sent.isSystem then .ok (t.sent,hashes,l) else do
  let (error,l) ← l.receive id t
  if error.isSystem then return (error,hashes,l) else
  if l.buffer.bytes.length ≠ kControlTableHashByte + kFirmwareHashByte then return (.messageSize,hashes,l) else
  return (.success,(l.buffer.bytes.take kControlTableHashByte,l.buffer.bytes.drop kControlTableHashByte),l)

def writeBlock (l : Link) (id : UInt8) (t : Transaction) : Except Halt (ErrorCode × Link) :=
  if t.sent.value ≠ 0 then .ok (t.sent,l) else do
  let (error,l) ← l.receive id t
  return (writeBlockAnswer t.sent error,l)

end Link

namespace TableTool

def kNetworkTimeout : Int := 100000000

inductive Said where
  | text (text : String)
  | name (name : List UInt8)
  | integer (value : Int)
  | number (value : Float)
  | message (error : ErrorCode)

inductive ToolEnd where
  | usage
  | terminated
  | failure (said : List Said)
  | success (said : List Said)

-- What a run meets: what the tables rest on, the files and the package's path, if it is found, how the
-- device opens, with or without USB, the storage that is reserved, and what the three operations meet.
structure Bench where
  csv : Csv
  round : Float → Option Float
  files : FileSystem
  packagePath : Option (List UInt8)
  opened : Bool → ErrorCode
  capacity : Nat
  reserved : kMaxPacketBuffer ≤ capacity
  hash : Transaction
  block : Transaction
  sync : Transaction

def Bench.link (b : Bench) : Link := ⟨{ExxxNetwork.initial with timeout := kNetworkTimeout},⟨[],b.capacity,b.reserved⟩⟩

def usesUsb (options : List (List UInt8)) : Bool := options.any fun option => option = ascii "-u" ∨ option = ascii "--usb"

-- How both programs come to the item: by the hash that the node tells, and the table that has it. They go on with
-- the item; what is handed to `Send` comes with how they end.
def withItem (b : Bench) (id : UInt8) (name : List UInt8)
    (rest : ControlTableItemDescriptor → Link → Except Halt (ToolEnd × List Request)) : Except Halt (ToolEnd × List Request) := do
  let (error,hashes,link) ← b.link.readHash id b.hash ([],[])
  let asked := [ExxxProtocol.readHash id]
  if error.isSystem then return (.failure [.text "Failed to read control table: ",.message error],asked) else
  match b.packagePath with
  | none => return (.terminated,asked)
  | some packagePath =>
    if packagePath = [] then return (.failure [.text "exxx_control_table package is not found"],asked) else
    match ControlTable.loadControlTable b.csv b.files packagePath hashes.1 .fresh [] with
    | none => return (.terminated,asked)
    | some (false,_,_) => return (.failure [.text "Cannot find right control table"],asked)
    | some (true,table,_) =>
      match table.referItemDescriptor name with
      | none => return (.failure [.text "Control table item ",.name name,.text " is not found!"],asked)
      | some item => do
        let (ended,requests) ← rest item link
        return (ended,asked ++ requests)

def writeItem (b : Bench) (p : ExxxProtocol) (id : UInt8) (name : List UInt8) (value : Float) (item : ControlTableItemDescriptor) (link : Link) :
    Except Halt (ToolEnd × List Request) :=
  match item.convertToBytes b.round value with
  | none => .ok (.failure [.text "Cannot convert ",.number value,.text " to ",.name name],[])
  | some data =>
    if data.length < item.numBytes then .error .fault else
    match p.writeBlock id item.initialAddress (data.take item.numBytes) with
    | none => .error .fault
    | some request => do
      let (error,link) ← link.writeBlock id b.block
      if error.isSystem then return (.failure [.text "Failed to write control table: ",.message error],[request]) else
      let (error,_) ← link.transact id b.sync
      let requests := [request,ExxxProtocol.syncParam id]
      if error.value ≠ 0 then return (.failure [.message error],requests) else
      return (.success [.text "exxx_write success!"],requests)

def exxxWrite (b : Bench) (arguments : List (List UInt8)) : Except Halt (ToolEnd × List Request) :=
  match arguments with
  | _ :: idText :: name :: valueText :: options =>
    if options.length > 1 then .ok (.usage,[]) else
    match lexicalCastInt idText,b.csv.lexicalCast valueText with
    | some number,some value =>
      let error := b.opened (usesUsb options)
      if error.value ≠ 0 then .ok (.failure [.message error],[]) else
      withItem b (UInt8.ofInt number) name (writeItem b .initial (UInt8.ofInt number) name value)
    | _,_ => .ok (.terminated,[])
  | _ => .ok (.usage,[])

def readItem (b : Bench) (p : ExxxProtocol) (id : UInt8) (name : List UInt8) (item : ControlTableItemDescriptor) (link : Link) :
    Except Halt (ToolEnd × List Request) :=
  match p.readBlock id item.initialAddress item.numBytes with
  | none => .error .fault
  | some request =>
    match readBlockAnswer link.network link.buffer id b.block.sent (List.replicate item.numBytes 0) b.block.start b.block.turns with
    | none => .error .unfinished
    | some (error,data) =>
      if error.isSystem then .ok (.failure [.text "Failed to read control table: ",.message error],[request]) else
      match item.convertToMKS data with
      | none => .ok (.success [.text "Control table item ",.name name,.text " cannot convert"],[request])
      | some value => .ok (.success [.name name,.text " of node ",.integer id.toNat,.text " : ",.number value],[request])

def exxxRead (b : Bench) (arguments : List (List UInt8)) : Except Halt (ToolEnd × List Request) :=
  match arguments with
  | _ :: idText :: name :: options =>
    if options.length > 1 then .ok (.usage,[]) else
    match lexicalCastInt idText with
    | none => .ok (.terminated,[])
    | some number =>
      let error := b.opened (usesUsb options)
      if error.value ≠ 0 then .ok (.failure [.message error],[]) else
      withItem b (UInt8.ofInt number) name (readItem b .initial (UInt8.ofInt number) name)
  | _ => .ok (.usage,[])

end TableTool

def Tells (id : UInt8) (t : Transaction) (m : StatusPacket) : Prop := m.id = id ∧ m.bytes <:+: readBytes t.turns

theorem receive_explained {n : ExxxNetwork} {id : UInt8} {capacity : Nat} {dataOut : List UInt8} {t : Transaction} {received : Received}
    (explained : Explained t.turns) (returned : n.receive id capacity dataOut t.start t.turns = some received) :
    (∃ m, Tells id t m ∧ received.code = m.status ∧ received.dataOut = m.parameters) ∨
      (received.code.isSystem ∧ received.dataOut = dataOut) := by
  rcases receive_outcome returned with ⟨m,⟨node,read,_⟩,status,parameters⟩ | ⟨errno,failed,kept,cause⟩
  · exact .inl ⟨m,⟨node,read⟩,status,parameters⟩
  · refine .inr ⟨?_,kept⟩
    rw [failed]
    refine ⟨rfl,?_⟩
    rintro rfl
    rcases cause with wrong | wrong | ⟨turn,member,cause⟩
    · cases wrong
    · cases wrong
    · exact explained turn member cause

namespace Link
variable {l k : Link} {id : UInt8} {t : Transaction} {error : ErrorCode}

theorem receive_answered (explained : Explained t.turns) (returned : l.receive id t = .ok (error,k)) :
    (∃ m, Tells id t m ∧ error = m.status ∧ k.buffer.bytes = m.parameters) ∨ (error.isSystem ∧ k.buffer.bytes = l.buffer.bytes) := by
  unfold receive at returned
  split at returned
  · cases returned
  rename_i received heard
  cases returned
  exact receive_explained explained heard

theorem transact_answered (explained : Explained t.turns) (returned : l.transact id t = .ok (error,k)) (passed : ¬ error.isSystem) :
    ∃ m, Tells id t m := by
  unfold transact at returned
  split at returned
  · rename_i unsent
    cases returned
    exact absurd unsent passed
  obtain ⟨⟨code,next⟩,received,returned⟩ := except_bind_ok.mp returned
  rcases receive_answered explained received with ⟨m,answered,_⟩ | ⟨failed,_⟩
  · exact ⟨m,answered⟩
  · dsimp only at returned
    rw [if_pos failed] at returned
    cases returned
    exact absurd failed passed

theorem readHash_answered {hashes told : List UInt8 × List UInt8} (explained : Explained t.turns)
    (returned : l.readHash id t hashes = .ok (error,told,k)) (passed : ¬ error.isSystem) :
    ∃ m, Tells id t m ∧ m.parameters.length = kControlTableHashByte + kFirmwareHashByte ∧
      told = (m.parameters.take kControlTableHashByte,m.parameters.drop kControlTableHashByte) := by
  unfold readHash at returned
  split at returned
  · rename_i unsent
    cases returned
    exact absurd unsent passed
  obtain ⟨⟨code,next⟩,received,returned⟩ := except_bind_ok.mp returned
  dsimp only at returned
  split at returned
  · rename_i failed
    cases returned
    exact absurd failed passed
  rename_i heard
  split at returned
  · cases returned
    exact absurd ⟨rfl,by decide⟩ passed
  · rename_i sized
    cases returned
    rcases receive_answered explained received with ⟨m,answered,_,parameters⟩ | ⟨failed,_⟩
    · rw [parameters] at sized ⊢
      exact ⟨m,answered,not_not.mp sized,rfl⟩
    · exact absurd failed heard

theorem writeBlock_answered (explained : Explained t.turns) (returned : l.writeBlock id t = .ok (error,k)) (passed : ¬ error.isSystem) :
    ∃ m, Tells id t m := by
  unfold writeBlock at returned
  split at returned
  · rename_i unsent
    cases returned
    exact absurd ⟨rfl,unsent⟩ passed
  rename_i sent
  obtain ⟨⟨code,next⟩,received,returned⟩ := except_bind_ok.mp returned
  cases returned
  rcases receive_answered explained received with ⟨m,answered,_⟩ | ⟨failed,_⟩
  · exact ⟨m,answered⟩
  · unfold writeBlockAnswer at passed
    rw [if_neg sent,if_pos failed.2] at passed
    exact absurd failed passed

end Link

namespace ControlTable

theorem loadLines_sized {csv : Csv} {lines : List (List UInt8)} {lastAddress numLine : Nat} {t u : ControlTable} {error : LoadError}
    {report : Option (String × Nat)} (sized : ∀ row ∈ t.descriptors, row.2.numBytes = row.2.type.size)
    (loaded : loadLines csv lines lastAddress numLine t = some (error,report,u)) :
    ∀ row ∈ u.descriptors, row.2.numBytes = row.2.type.size := by
  induction lines generalizing lastAddress numLine t with
  | nil =>
      cases loaded
      exact sized
  | cons line lines ih =>
      obtain ⟨⟨failure,next,after⟩,taken,loaded⟩ := Option.bind_eq_some_iff.mp loaded
      have kept : ∀ row ∈ after.descriptors, row.2.numBytes = row.2.type.size := by
        unfold processLine at taken
        obtain ⟨tokens,_,taken⟩ := Option.bind_eq_some_iff.mp taken
        split at taken
        · cases taken
          exact sized
        dsimp only at taken
        split at taken
        · cases taken
          exact sized
        split at taken
        · cases taken
          exact sized
        · cases taken
          intro row member
          rcases List.mem_append.mp member with old | new
          · exact sized row old
          · rw [List.mem_singleton.mp new]
            exact construct_numBytes _ _ _ _
      dsimp only at loaded
      split at loaded
      · cases loaded
        exact kept
      · exact ih kept loaded

theorem loadControlTable_holds {csv : Csv} {fs : FileSystem} {packagePath hwHash selected path : List UInt8} {u : ControlTable}
    (found : loadControlTable csv fs packagePath hwHash fresh selected = some (true,u,path)) : Holds csv fs hwHash path u := by
  obtain ⟨homePath,_,found⟩ := Option.bind_eq_some_iff.mp found
  split at found
  · cases read : fs.content (homeTable homePath) with
    | none =>
        rw [read] at found
        cases found
    | some message =>
        rw [read] at found
        split at found
        · cases found
        · rename_i loaded
          split at found
          · rename_i same
            cases found
            exact ⟨message,_,read,(load_hash loaded).symm.trans same.symm,loaded⟩
          · cases found
        · cases found
  · obtain ⟨there,_,found⟩ := Option.bind_eq_some_iff.mp found
    split at found
    · cases found
    · exact searchVersions_sound found

theorem holds_sized {csv : Csv} {fs : FileSystem} {hwHash path name : List UInt8} {u : ControlTable} {item : ControlTableItemDescriptor}
    (holds : Holds csv fs hwHash path u) (found : u.referItemDescriptor name = some item) : item.numBytes = item.type.size := by
  obtain ⟨message,report,_,_,loaded⟩ := holds
  have sized := loadLines_sized (fun row member => absurd member List.not_mem_nil) loaded
  obtain ⟨before,after,split,_⟩ := List.lookup_eq_some_iff.mp found
  exact sized (name,item) (by rw [split]; exact List.mem_append_right _ List.mem_cons_self)

end ControlTable

theorem byteCast_length {round : Float → Option Float} {type : ValueType} {value : Float} {data : List UInt8}
    (converted : byteCast round type value = some data) : data.length = type.size := by
  unfold byteCast at converted
  split at converted
  · split at converted
    · cases converted
    · cases converted
      exact toLe_length _ _
  · cases converted
    exact toLe_length _ _
  · split at converted
    · cases converted
    · split at converted
      · cases converted
      · cases converted
        exact toLe_length _ _

theorem ExxxProtocol.ReceiveBuffer.fits (buffer : ReceiveBuffer) (m : StatusPacket) : m.parameters.length ≤ buffer.capacity :=
  Nat.le_trans m.parameters_length_le (Nat.le_trans (by decide) buffer.reserved)

theorem ValueType.size_small (type : ValueType) : type.size < 2^8 := by cases type <;> decide

namespace TableTool

structure Bench.Explained (b : Bench) : Prop where
  hash : Servomotor.Explained b.hash.turns
  block : Servomotor.Explained b.block.turns
  sync : Servomotor.Explained b.sync.turns

def Found (b : Bench) (id : UInt8) (name : List UInt8) (item : ControlTableItemDescriptor) : Prop :=
  ∃ m table path, Tells id b.hash m ∧ m.parameters.length = kControlTableHashByte + kFirmwareHashByte ∧
    ControlTable.Holds b.csv b.files (m.parameters.take kControlTableHashByte) path table ∧ table.referItemDescriptor name = some item

theorem readBlock_request (p : ExxxProtocol) (id : UInt8) (addr size : Nat) :
    p.readBlock id addr size = some ⟨id,kInstructionReadData,toLe 2 addr ++ toLe 2 size⟩ := by
  have stores : p.readBlock id addr size = (Storage.storeEach (resize p.sendBuffer 4) [(0,toLe 2 addr),(2,toLe 2 size)]).map
      fun storage => ⟨id,kInstructionReadData,storage.take 4⟩ := by
    simp [readBlock,Storage.storeEach,Option.map_eq_bind,Option.bind_assoc]
  obtain ⟨rest,filled⟩ := @storeEach_resized p 4 [(0,toLe 2 addr),(2,toLe 2 size)] (by simp [Storage.Follow]) (by simp)
  rw [stores,filled]
  simp [List.take_append]

def writeRequest (id : UInt8) (item : ControlTableItemDescriptor) (data : List UInt8) : Request :=
  ⟨id,kInstructionWriteData,toLe 2 item.initialAddress ++ data⟩

def readRequest (id : UInt8) (item : ControlTableItemDescriptor) : Request :=
  ⟨id,kInstructionReadData,toLe 2 item.initialAddress ++ toLe 2 item.numBytes⟩

-- How far a run that writes comes: it asks for the hash, writes the item's bytes where the table has them, and has
-- the node take them over once the write is answered. It succeeds only if that is answered too.
inductive Writes (b : Bench) (id : UInt8) (name : List UInt8) (value : Float) : ToolEnd → List Request → Prop where
  | asked (failed : ∀ said, ended ≠ .success said) : Writes b id name value ended [ExxxProtocol.readHash id]
  | written (found : Found b id name item) (converted : item.convertToBytes b.round value = some data)
      (sized : data.length = item.numBytes) (failed : ∀ said, ended ≠ .success said) :
      Writes b id name value ended [ExxxProtocol.readHash id,writeRequest id item data]
  | synchronised (found : Found b id name item) (converted : item.convertToBytes b.round value = some data)
      (sized : data.length = item.numBytes) (acknowledged : ∃ m, Tells id b.block m)
      (taken : ∀ said, ended = .success said → ∃ m, Tells id b.sync m) :
      Writes b id name value ended [ExxxProtocol.readHash id,writeRequest id item data,ExxxProtocol.syncParam id]

section
variable {b : Bench} {p : ExxxProtocol} {id : UInt8} {name : List UInt8} {value : Float} {item : ControlTableItemDescriptor}
variable {link : Link} {ended : ToolEnd} {requests : List Request}

theorem withItem_parts {rest : ControlTableItemDescriptor → Link → Except Halt (ToolEnd × List Request)} (explained : b.Explained)
    (returned : withItem b id name rest = .ok (ended,requests)) :
    (requests = [ExxxProtocol.readHash id] ∧ ∀ said, ended ≠ .success said) ∨
      ∃ item link more, Found b id name item ∧ item.numBytes = item.type.size ∧ rest item link = .ok (ended,more) ∧
        requests = ExxxProtocol.readHash id :: more := by
  obtain ⟨⟨error,hashes,link⟩,asked,returned⟩ := except_bind_ok.mp returned
  dsimp only at returned
  split at returned
  · cases returned
    exact .inl ⟨rfl,fun _ same => by cases same⟩
  rename_i told
  obtain ⟨m,answered,sized,rfl⟩ := Link.readHash_answered explained.hash asked told
  split at returned
  · cases returned
    exact .inl ⟨rfl,fun _ same => by cases same⟩
  split at returned
  · cases returned
    exact .inl ⟨rfl,fun _ same => by cases same⟩
  split at returned
  · cases returned
    exact .inl ⟨rfl,fun _ same => by cases same⟩
  · cases returned
    exact .inl ⟨rfl,fun _ same => by cases same⟩
  rename_i table path selected
  split at returned
  · cases returned
    exact .inl ⟨rfl,fun _ same => by cases same⟩
  rename_i item listed
  obtain ⟨⟨last,more⟩,continued,returned⟩ := except_bind_ok.mp returned
  cases returned
  have holds := ControlTable.loadControlTable_holds selected
  exact .inr ⟨item,link,more,⟨m,table,path,answered,sized,holds,listed⟩,ControlTable.holds_sized holds listed,continued,rfl⟩

theorem writeItem_writes (explained : b.Explained) (found : Found b id name item) (sized : item.numBytes = item.type.size)
    (returned : writeItem b p id name value item link = .ok (ended,requests)) :
    Writes b id name value ended (ExxxProtocol.readHash id :: requests) := by
  unfold writeItem at returned
  split at returned
  · cases returned
    exact .asked fun _ same => by cases same
  rename_i data converted
  have whole : data.length = item.numBytes := (byteCast_length converted).trans sized.symm
  split at returned
  · cases returned
  split at returned
  · cases returned
  rename_i request stored
  rw [← whole,List.take_length] at stored
  have short : data.length < 2^8 := by
    rw [whole,sized]
    exact item.type.size_small
  rw [writeBlock_request _ _ _ short] at stored
  cases stored
  obtain ⟨⟨error,next⟩,wrote,returned⟩ := except_bind_ok.mp returned
  dsimp only at returned
  split at returned
  · cases returned
    exact .written found converted whole fun _ same => by cases same
  rename_i passed
  have acknowledged := Link.writeBlock_answered explained.block wrote passed
  obtain ⟨⟨code,last⟩,synced,returned⟩ := except_bind_ok.mp returned
  dsimp only at returned
  split at returned
  · cases returned
    exact .synchronised found converted whole acknowledged fun _ same => by cases same
  · rename_i none
    cases returned
    exact .synchronised found converted whole acknowledged fun _ _ => Link.transact_answered explained.sync synced fun failed => none failed.2

end

-- Whatever arrives, a run of `exxx_write` hands nothing to `Send`, or goes one of these ways with the node, the item and the
-- value that it was given: nothing is written unless the node told the hash of the table that says where and how.
theorem exxxWrite_writes {b : Bench} (explained : b.Explained) {arguments : List (List UInt8)} {ended : ToolEnd}
    {requests : List Request} (returned : exxxWrite b arguments = .ok (ended,requests)) :
    (requests = [] ∧ ∀ said, ended ≠ .success said) ∨
      ∃ device idText name valueText options number value, arguments = device :: idText :: name :: valueText :: options ∧
        lexicalCastInt idText = some number ∧ b.csv.lexicalCast valueText = some value ∧
        Writes b (UInt8.ofInt number) name value ended requests := by
  unfold exxxWrite at returned
  split at returned
  · rename_i device idText name valueText options
    split at returned
    · cases returned
      exact .inl ⟨rfl,fun _ same => by cases same⟩
    split at returned
    · rename_i number value read cast
      dsimp only at returned
      split at returned
      · cases returned
        exact .inl ⟨rfl,fun _ same => by cases same⟩
      refine .inr ⟨device,idText,name,valueText,options,number,value,rfl,read,cast,?_⟩
      rcases withItem_parts explained returned with ⟨rfl,failed⟩ | ⟨item,link,more,found,sized,continued,rfl⟩
      · exact .asked failed
      · exact writeItem_writes explained found sized continued
    · cases returned
      exact .inl ⟨rfl,fun _ same => by cases same⟩
  · cases returned
    exact .inl ⟨rfl,fun _ same => by cases same⟩

def answering (m : StatusPacket) : Transaction := ⟨0,0,arriving m.bytes⟩

theorem answering_sent (m : StatusPacket) : ¬ (answering m).sent.isSystem := fun failed => failed.2 rfl

section
variable {l : Link} {m : StatusPacket}

theorem receive_answering (time : 0 < l.network.timeout) :
    ∃ k : Link, 0 < k.network.timeout ∧ k.buffer.bytes = m.parameters ∧ l.receive m.id (answering m) = .ok (m.status,k) := by
  obtain ⟨parser,heard⟩ := receive_arriving time m l.buffer.bytes (l.buffer.fits m)
  refine ⟨⟨{l.network with parser := parser},{l.buffer with bytes := m.parameters}⟩,time,rfl,?_⟩
  unfold Link.receive answering
  rw [heard]

theorem readHash_answering (time : 0 < l.network.timeout) (sized : m.parameters.length = kControlTableHashByte + kFirmwareHashByte)
    (hashes : List UInt8 × List UInt8) : ∃ k : Link, 0 < k.network.timeout ∧ l.readHash m.id (answering m) hashes =
      .ok (.success,(m.parameters.take kControlTableHashByte,m.parameters.drop kControlTableHashByte),k) := by
  obtain ⟨k,ready,told,received⟩ := receive_answering (m := m) time
  refine ⟨k,ready,?_⟩
  unfold Link.readHash
  rw [if_neg (answering_sent m),received]
  simp only [bind,Except.bind,if_neg (show ¬ m.status.isSystem from m.status_passes),told,if_neg (not_not.mpr sized)]
  rfl

theorem writeBlock_answering (time : 0 < l.network.timeout) :
    ∃ error, ∃ k : Link, 0 < k.network.timeout ∧ ¬ error.isSystem ∧ l.writeBlock m.id (answering m) = .ok (error,k) := by
  obtain ⟨k,ready,_,received⟩ := receive_answering (m := m) time
  refine ⟨writeBlockAnswer (answering m).sent m.status,k,ready,?_,?_⟩
  · unfold writeBlockAnswer
    rw [if_neg (fun failed => failed rfl)]
    split
    · exact m.status_passes
    · exact fun failed => failed.2 rfl
  · unfold Link.writeBlock
    rw [if_neg (fun failed => failed rfl),received]
    rfl

theorem readBlock_answering (time : 0 < l.network.timeout) {out : List UInt8} (whole : m.parameters.length = out.length % 2^16) :
    readBlockAnswer l.network l.buffer m.id (answering m).sent out (answering m).start (answering m).turns =
      some (m.status,m.parameters ++ out.drop m.parameters.length) := by
  obtain ⟨parser,heard⟩ := receive_arriving time m l.buffer.bytes (l.buffer.fits m)
  unfold readBlockAnswer answering
  rw [if_neg (fun failed => failed rfl),heard,Option.map_some,readBlockReply_packet rfl rfl,if_pos whole]

theorem transact_answering (time : 0 < l.network.timeout) : ∃ k, l.transact m.id (answering m) = .ok (.success,k) := by
  obtain ⟨k,_,_,received⟩ := receive_answering (m := m) time
  refine ⟨k,?_⟩
  unfold Link.transact
  rw [if_neg (answering_sent m),received]
  simp only [bind,Except.bind,if_neg (show ¬ m.status.isSystem from m.status_passes)]
  rfl

end

section
variable {b : Bench} {p : ExxxProtocol} {told m k : StatusPacket} {packagePath selected name : List UInt8} {table : ControlTable}
variable {item : ControlTableItemDescriptor} {link : Link}

-- Where the node tells the hash of a table that has the item, both programs come to it.
theorem withItem_told (answered : b.hash = answering told)
    (sized : told.parameters.length = kControlTableHashByte + kFirmwareHashByte) (packaged : b.packagePath = some packagePath)
    (there : packagePath ≠ []) (loaded : ControlTable.loadControlTable b.csv b.files packagePath
      (told.parameters.take kControlTableHashByte) .fresh [] = some (true,table,selected))
    (listed : table.referItemDescriptor name = some item) :
    ∃ link : Link, 0 < link.network.timeout ∧ ∀ rest ended requests, rest item link = .ok (ended,requests) →
      withItem b told.id name rest = .ok (ended,ExxxProtocol.readHash told.id :: requests) := by
  obtain ⟨link,ready,read⟩ := readHash_answering (l := b.link) (show 0 < kNetworkTimeout by decide) sized ([],[])
  refine ⟨link,ready,fun rest ended requests continued => ?_⟩
  unfold withItem
  rw [answered,read]
  simp only [bind,Except.bind,packaged,if_neg there,loaded,listed,continued,ErrorCode.isSystem]
  rfl

theorem exxxWrite_begins {device idText valueText : List UInt8} {options : List (List UInt8)} {number : Int} {value : Float}
    (few : options.length ≤ 1) (read : lexicalCastInt idText = some number) (cast : b.csv.lexicalCast valueText = some value)
    (opened : (b.opened (usesUsb options)).value = 0) : exxxWrite b (device :: idText :: name :: valueText :: options) =
      withItem b (UInt8.ofInt number) name (writeItem b .initial (UInt8.ofInt number) name value) := by
  simp only [exxxWrite,if_neg (Nat.not_lt.mpr few),read,cast,if_neg (not_not.mpr opened)]

theorem writeItem_answered (time : 0 < link.network.timeout) (block : b.block = answering m) (sync : b.sync = answering k)
    (one : m.id = told.id) (other : k.id = told.id) {value : Float} {data : List UInt8}
    (converted : item.convertToBytes b.round value = some data) (whole : data.length = item.numBytes) (short : data.length < 2^8) :
    writeItem b p told.id name value item link = .ok (.success [.text "exxx_write success!"],
      [writeRequest told.id item data,ExxxProtocol.syncParam told.id]) := by
  obtain ⟨error,l,ready,passed,wrote⟩ := writeBlock_answering (m := m) time
  obtain ⟨_,synced⟩ := transact_answering (m := k) ready
  rw [← block,one] at wrote
  rw [← sync,other] at synced
  unfold writeItem
  simp only [converted,← whole,Nat.lt_irrefl,if_false,List.take_length,writeBlock_request _ _ _ short,bind,Except.bind,wrote,
    if_neg passed,synced]
  rfl

theorem exxxRead_begins {device idText : List UInt8} {options : List (List UInt8)} {number : Int} (few : options.length ≤ 1)
    (read : lexicalCastInt idText = some number) (opened : (b.opened (usesUsb options)).value = 0) :
    exxxRead b (device :: idText :: name :: options) =
      withItem b (UInt8.ofInt number) name (readItem b .initial (UInt8.ofInt number) name) := by
  simp only [exxxRead,if_neg (Nat.not_lt.mpr few),read,if_neg (not_not.mpr opened)]

theorem readItem_answered (time : 0 < link.network.timeout) (block : b.block = answering m) (same : m.id = told.id)
    (whole : m.parameters.length = item.numBytes) (short : item.numBytes < 2^16) {value : Float}
    (converted : item.convertToMKS m.parameters = some value) : readItem b p told.id name item link =
      .ok (.success [.name name,.text " of node ",.integer told.id.toNat,.text " : ",.number value],[readRequest told.id item]) := by
  have range : m.parameters.length = (List.replicate item.numBytes (0 : UInt8)).length % 2^16 := by
    rw [List.length_replicate,Nat.mod_eq_of_lt short,whole]
  have answer := readBlock_answering time range
  rw [← block,same,whole,List.drop_of_length_le (Nat.le_of_eq List.length_replicate),List.append_nil] at answer
  unfold readItem
  simp only [readBlock_request,answer,if_neg (show ¬ m.status.isSystem from m.status_passes),converted]
  rfl

end

def packet (parameters : List UInt8) (short : parameters.length < 253) : StatusPacket where
  id := 1
  length1 := UInt8.ofNat (parameters.length + 3)
  length2 := 0
  error1 := 0
  error2 := 0
  parameters := parameters
  sized := by
    simp only [fromLe_cons,fromLe_nil,UInt8.toNat_ofNat']
    change (parameters.length + 3) % 256 + 256 * (0 + 256 * 0) = _
    omega

def homeFiles : FileSystem where
  home := some []
  status path := some (path = ControlTable.homeTable [])
  content path := if path = ControlTable.homeTable [] then some smallFile else none
  entries _ := ([],true)

def bench (value : List UInt8) (short : value.length < 253) : Bench where
  csv := {plainCsv smallFileMd5 with lexicalCast := fun text => if text = ascii "5" then some 5.0 else none}
  round := some
  files := homeFiles
  packagePath := some (ascii "/opt")
  opened _ := .success
  capacity := kMaxPacketBuffer
  reserved := Nat.le_refl _
  hash := answering (packet (smallFileMd5 ++ List.replicate 20 0) (by decide))
  block := answering (packet value short)
  sync := answering (packet [] (by decide))

theorem bench_explained (value : List UInt8) (short : value.length < 253) : (bench value short).Explained :=
  ⟨arriving_explained _,arriving_explained _,arriving_explained _⟩

def ToolEnd.succeeds : ToolEnd → Bool
  | success _ => true
  | _ => false

theorem speed_listed : ∃ table selected item, ControlTable.loadControlTable (bench [] (by decide)).csv homeFiles (ascii "/opt") smallFileMd5
    .fresh [] = some (true,table,selected) ∧ table.referItemDescriptor (ascii "speed") = some item ∧ item.initialAddress = 0 ∧
      item.numBytes = 2 ∧ item.convertToBytes some 5.0 = some [5,0] := by
  have evaluated : ((ControlTable.loadControlTable (bench [] (by decide)).csv homeFiles (ascii "/opt") smallFileMd5 .fresh []).bind
      fun (found,table,_) => (table.referItemDescriptor (ascii "speed")).map fun item =>
        (found,item.initialAddress,item.numBytes,item.convertToBytes some 5.0)) = some (true,0,2,some [5,0]) := by decide +kernel
  obtain ⟨⟨found,table,selected⟩,loaded,held⟩ := Option.bind_eq_some_iff.mp evaluated
  obtain ⟨item,listed,same⟩ := Option.map_eq_some_iff.mp held
  simp only [Prod.mk.injEq] at same
  obtain ⟨rfl,address,size,converted⟩ := same
  exact ⟨table,selected,item,loaded,listed,address,size,converted⟩

theorem bench_reaches (value : List UInt8) (short : value.length < 253) : ∃ item link, item.initialAddress = 0 ∧ item.numBytes = 2 ∧
    item.convertToBytes some 5.0 = some [5,0] ∧ 0 < link.network.timeout ∧ ∀ rest ended requests,
      rest item link = .ok (ended,requests) → withItem (bench value short) 1 (ascii "speed") rest = .ok (ended,readHash 1 :: requests) := by
  obtain ⟨table,selected,item,loaded,listed,address,size,converted⟩ := speed_listed
  obtain ⟨link,ready,reaches⟩ := @withItem_told (bench value short) (packet (smallFileMd5 ++ List.replicate 20 0) (by decide)) _ _ _
    _ _ rfl (by decide) rfl (by decide) loaded listed
  exact ⟨item,link,address,size,converted,ready,reaches⟩

theorem speed_written : ∃ ended requests number value, ended.succeeds = true ∧ requests.map Request.data = [[],[0,0,5,0],[]] ∧
    Writes (bench [] (by decide)) (UInt8.ofInt number) (ascii "speed") value ended requests := by
  obtain ⟨item,link,address,size,converted,ready,reaches⟩ := bench_reaches [] (by decide)
  have wrote := @writeItem_answered (bench [] (by decide)) .initial (packet [] (by decide)) (packet [] (by decide)) (packet [] (by decide))
    (ascii "speed") item link ready rfl rfl rfl rfl 5.0 [5,0] converted size.symm (by decide)
  have begun := @exxxWrite_begins (bench [] (by decide)) (ascii "speed") [] (ascii "1") (ascii "5") [] 1 5.0 (by decide) (by decide +kernel)
    (show (if ascii "5" = ascii "5" then some 5.0 else none) = some (5.0 : Float) from if_pos rfl) rfl
  rcases exxxWrite_writes (bench_explained _ _) (begun.trans (reaches _ _ _ wrote)) with ⟨none,_⟩ | ⟨_,_,_,_,_,number,value,same,_,_,writes⟩
  · cases none
  · cases same
    exact ⟨_,_,number,value,rfl,by simp only [writeRequest,address]; rfl,writes⟩

-- How far a run that reads comes: what it shows is the item's bytes as a packet of the node tells them, converted as
-- the table says.
inductive Reads (b : Bench) (id : UInt8) (name : List UInt8) : ToolEnd → List Request → Prop where
  | asked (failed : ∀ said, ended ≠ .success said) : Reads b id name ended [ExxxProtocol.readHash id]
  | unread (found : Found b id name item) (failed : ∀ said, ended ≠ .success said) :
      Reads b id name ended [ExxxProtocol.readHash id,readRequest id item]
  | shown (found : Found b id name item) (heard : Tells id b.block m) (sized : m.parameters.length = item.numBytes)
      (converted : item.convertToMKS m.parameters = some value) :
      Reads b id name (.success [.name name,.text " of node ",.integer id.toNat,.text " : ",.number value])
        [ExxxProtocol.readHash id,readRequest id item]

section
variable {b : Bench} {p : ExxxProtocol} {id : UInt8} {name : List UInt8} {item : ControlTableItemDescriptor} {link : Link} {ended : ToolEnd}
variable {requests : List Request}

theorem readBlock_answered {t : Transaction} {n : ExxxNetwork} {buffer : ReceiveBuffer} {out data : List UInt8} {error : ErrorCode}
    (explained : Explained t.turns) (short : out.length < 2^16)
    (returned : readBlockAnswer n buffer id t.sent out t.start t.turns = some (error,data)) (passed : ¬ error.isSystem) :
    ∃ m, Tells id t m ∧ m.parameters.length = out.length ∧ data = m.parameters := by
  unfold readBlockAnswer at returned
  split at returned
  · rename_i unsent
    cases returned
    exact absurd ⟨rfl,unsent⟩ passed
  obtain ⟨received,heard,same⟩ := Option.map_eq_some_iff.mp returned
  rw [Nat.mod_eq_of_lt short] at same
  rcases receive_explained explained heard with ⟨m,answered,status,parameters⟩ | ⟨failed,_⟩
  · rw [readBlockReply_packet status parameters] at same
    split at same
    · rename_i whole
      cases same
      exact ⟨m,answered,whole,by rw [whole,List.drop_length,List.append_nil]⟩
    · cases same
      exact absurd ⟨rfl,by decide⟩ passed
  · unfold readBlockReply at same
    rw [if_pos (show received.code.category = .system ∧ received.code.value ≠ 0 from failed)] at same
    cases same
    exact absurd failed passed

theorem readItem_reads (explained : b.Explained) (found : Found b id name item) (sized : item.numBytes = item.type.size)
    (returned : readItem b p id name item link = .ok (ended,requests)) :
    Reads b id name ended (ExxxProtocol.readHash id :: requests) := by
  unfold readItem at returned
  split at returned
  · cases returned
  rename_i request stored
  rw [readBlock_request] at stored
  cases stored
  split at returned
  · cases returned
  rename_i error data answer
  split at returned
  · cases returned
    exact .unread found fun _ same => by cases same
  rename_i passed
  have short : (List.replicate item.numBytes (0 : UInt8)).length < 2^16 := by
    have small := item.type.size_small
    rw [List.length_replicate,sized]
    omega
  obtain ⟨m,answered,whole,rfl⟩ := readBlock_answered explained.block short answer passed
  rw [List.length_replicate] at whole
  split at returned
  · rename_i refused
    unfold ControlTableItemDescriptor.convertToMKS at refused
    rw [if_neg (not_not.mpr whole)] at refused
    cases refused
  · rename_i value converted
    cases returned
    exact .shown found answered whole converted

end

-- Whatever arrives, a run of `exxx_read` hands nothing to `Send`, or goes one of these ways; a read item is never
-- said not to convert.
theorem exxxRead_reads {b : Bench} (explained : b.Explained) {arguments : List (List UInt8)} {ended : ToolEnd}
    {requests : List Request} (returned : exxxRead b arguments = .ok (ended,requests)) :
    (requests = [] ∧ ∀ said, ended ≠ .success said) ∨
      ∃ device idText name options number, arguments = device :: idText :: name :: options ∧
        lexicalCastInt idText = some number ∧ Reads b (UInt8.ofInt number) name ended requests := by
  unfold exxxRead at returned
  split at returned
  · rename_i device idText name options
    split at returned
    · cases returned
      exact .inl ⟨rfl,fun _ same => by cases same⟩
    split at returned
    · cases returned
      exact .inl ⟨rfl,fun _ same => by cases same⟩
    rename_i number read
    dsimp only at returned
    split at returned
    · cases returned
      exact .inl ⟨rfl,fun _ same => by cases same⟩
    refine .inr ⟨device,idText,name,options,number,rfl,read,?_⟩
    rcases withItem_parts explained returned with ⟨rfl,failed⟩ | ⟨item,link,more,found,sized,continued,rfl⟩
    · exact .asked failed
    · exact readItem_reads explained found sized continued
  · cases returned
    exact .inl ⟨rfl,fun _ same => by cases same⟩

theorem speed_read : ∃ ended requests number, ended.succeeds = true ∧ requests.map Request.data = [[],[0,0,2,0]] ∧
    Reads (bench [5,0] (by decide)) (UInt8.ofInt number) (ascii "speed") ended requests := by
  obtain ⟨item,link,address,size,_,ready,reaches⟩ := bench_reaches [5,0] (by decide)
  have converted : item.convertToMKS [5,0] = some (doubleCast item.type [5,0] / item.coefficientMks) := by
    rw [ControlTableItemDescriptor.convertToMKS,size]
    rfl
  have read := @readItem_answered (bench [5,0] (by decide)) .initial (packet [] (by decide)) (packet [5,0] (by decide)) (ascii "speed") item link
    ready rfl rfl size.symm (by omega) _ converted
  have begun := @exxxRead_begins (bench [5,0] (by decide)) (ascii "speed") [] (ascii "1") [] 1 (by decide) (by decide +kernel) rfl
  rcases exxxRead_reads (bench_explained _ _) (begun.trans (reaches _ _ _ read)) with ⟨none,_⟩ | ⟨_,_,_,_,number,same,_,reads⟩
  · cases none
  · cases same
    exact ⟨_,_,number,rfl,by simp only [readRequest,address,size]; rfl,reads⟩

end TableTool
end HsrbDrivers.Servomotor
