import HsrbDrivers.Servomotor.Protocol

namespace HsrbDrivers.Servomotor
open Bytes Storage

namespace ExxxProtocol

-- The stores of `WriteBlock` into `send_buffer_`.
def blockStores (addr : Nat) (data : List UInt8) : List (Nat × List UInt8) := [(0,toLe 2 addr),(2,data)]

def nodeStores (dataLength : Nat) : Nat → List (UInt8 × List UInt8) → List (Nat × List UInt8)
  | _,[] => []
  | i,(id,value) :: nodes =>
    (4 + i*(dataLength+1),[id]) :: (4 + i*(dataLength+1) + 1,value) :: nodeStores dataLength (i+1) nodes

def syncStores (width : Nat) (addr : Nat) (nodes : List (UInt8 × List UInt8)) : List (Nat × List UInt8) :=
  (0,toLe 2 addr) :: (2,toLe 2 (width % 2^16)) :: nodeStores (width % 2^16) 0 nodes

def syncSize (width count : Nat) : Nat := (width % 2^16 + 1) * (count % 2^8) + 4

def writeBlockAnswer (sent received : ErrorCode) : ErrorCode :=
  if sent.value ≠ 0 then sent else if received.value ≠ 0 then received else .success

def syncWriteAnswer (sent : ErrorCode) : ErrorCode := if sent.value ≠ 0 then sent else .success

-- Nothing is stored outside of the buffer's size, and a success stands for all of the data.
def BlockCarried (p : ExxxProtocol) (id : UInt8) (addr : Nat) (data : List UInt8) : Prop :=
  Inside (data.length % 2^8 + 2) (blockStores addr data) ∧
  ∀ request sent received, p.writeBlock id addr data = some request → writeBlockAnswer sent received = .success →
    request.data = toLe 2 addr ++ data

def NodesCarried (p : ExxxProtocol) (width : Nat) (ids : List UInt8) (addr : Nat) (data : List (Vector UInt8 width)) : Prop :=
  ids.length = data.length →
    Inside (syncSize width ids.length) (syncStores width addr (ids.zip (data.map Vector.toList))) ∧
    ∀ request sent, p.syncWriteData width ids addr data = some (.ok request) → syncWriteAnswer sent = .success →
      ∃ elementSize, elementSize.length = 2 ∧ fromLe elementSize = width ∧ request.data = toLe 2 addr ++ elementSize ++
        (ids.zip (data.map Vector.toList)).flatMap fun (id,value) => id :: value

theorem writeBlock_stores (p : ExxxProtocol) (id : UInt8) (addr : Nat) (data : List UInt8) :
    p.writeBlock id addr data = (storeEach (resize p.sendBuffer (data.length % 2^8 + 2)) (blockStores addr data)).map
      fun storage => ⟨id,kInstructionWriteData,storage.take (data.length % 2^8 + 2)⟩ := by
  simp [writeBlock,blockStores,storeEach,Option.map_eq_bind,Option.bind_assoc]

theorem storeNodes_stores (dataLength : Nat) (storage : List UInt8) (i : Nat) (nodes : List (UInt8 × List UInt8)) :
    storeNodes dataLength storage i nodes = storeEach storage (nodeStores dataLength i nodes) := by
  induction nodes generalizing storage i with
  | nil => rfl
  | cons node nodes ih => simp [storeNodes,nodeStores,storeEach,ih]

theorem syncWriteData_stores (p : ExxxProtocol) {width : Nat} {ids : List UInt8} (addr : Nat) {data : List (Vector UInt8 width)}
    (paired : ids.length = data.length) : p.syncWriteData width ids addr data =
      (storeEach (resize p.sendBuffer (syncSize width ids.length)) (syncStores width addr (ids.zip (data.map Vector.toList)))).map
        fun storage => .ok ⟨kBroadcastId,kInstructionSyncWrite,storage.take (syncSize width ids.length % 2^16)⟩ := by
  simp [syncWriteData,paired,syncStores,syncSize,storeEach,storeNodes_stores,Option.map_eq_bind,Option.bind_assoc]

theorem blockStores_follow (addr : Nat) (data : List UInt8) : Follow 0 (blockStores addr data) := by
  simp [blockStores,Follow]

theorem nodeStores_follow {dataLength i : Nat} {nodes : List (UInt8 × List UInt8)}
    (sized : ∀ node ∈ nodes, node.2.length = dataLength) : Follow (4 + i*(dataLength+1)) (nodeStores dataLength i nodes) := by
  induction nodes generalizing i with
  | nil => trivial
  | cons node nodes ih =>
      obtain ⟨first,rest⟩ := List.forall_mem_cons.mp sized
      have reach : 4 + i*(dataLength+1) + [node.1].length + node.2.length = 4 + (i+1)*(dataLength+1) := by
        rw [List.length_singleton,first,Nat.succ_mul]
        omega
      refine ⟨rfl,rfl,?_⟩
      rw [reach]
      exact ih rest

theorem nodeStores_bytes (dataLength i : Nat) (nodes : List (UInt8 × List UInt8)) :
    (nodeStores dataLength i nodes).flatMap Prod.snd = nodes.flatMap fun (id,value) => id :: value := by
  induction nodes generalizing i with
  | nil => rfl
  | cons node nodes ih => simp [nodeStores,ih]

theorem nodeStores_last (dataLength i : Nat) (front : List (UInt8 × List UInt8)) (id : UInt8) (value : List UInt8) :
    (4 + (i + front.length)*(dataLength+1) + 1,value) ∈ nodeStores dataLength i (front ++ [(id,value)]) := by
  induction front generalizing i with
  | nil => simp [nodeStores]
  | cons node front ih =>
      have behind : i + (node :: front).length = i + 1 + front.length := by simp; omega
      have later := ih (i+1)
      rw [← behind] at later
      exact List.mem_cons_of_mem _ (List.mem_cons_of_mem _ later)

theorem storeEach_resized (p : ExxxProtocol) {size : Nat} {stores : List (Nat × List UInt8)} (follow : Follow 0 stores)
    (filled : (stores.flatMap Prod.snd).length = size) :
    ∃ rest, storeEach (resize p.sendBuffer size) stores = some (stores.flatMap Prod.snd ++ rest) := by
  have room := resize_length p.sendBuffer size
  rw [storeEach_follow follow,storeAll_eq _ _ _ (Nat.zero_le _),if_pos (by omega)]
  exact ⟨_,rfl⟩

theorem blockStores_outside {addr : Nat} {data : List UInt8} (long : 2^8 ≤ data.length) :
    ¬ Inside (data.length % 2^8 + 2) (blockStores addr data) := by
  intro inside
  have last := inside (2,data) (List.mem_cons_of_mem _ List.mem_cons_self)
  dsimp only at last
  omega

theorem blockStores_filled (addr : Nat) (data : List UInt8) : ((blockStores addr data).flatMap Prod.snd).length = data.length + 2 := by
  simp [blockStores,Nat.add_comm]

theorem writeBlock_request (p : ExxxProtocol) (id : UInt8) (addr : Nat) {data : List UInt8} (short : data.length < 2^8) :
    p.writeBlock id addr data = some ⟨id,kInstructionWriteData,toLe 2 addr ++ data⟩ := by
  obtain ⟨rest,stored⟩ := storeEach_resized p (blockStores_follow addr data) (blockStores_filled addr data)
  rw [writeBlock_stores,Nat.mod_eq_of_lt short,stored]
  simp [blockStores,List.take_append]

theorem writeBlock_carries_iff (p : ExxxProtocol) (id : UInt8) (addr : Nat) (data : List UInt8) :
    p.BlockCarried id addr data ↔ data.length < 2^8 := by
  constructor
  · rintro ⟨inside,_⟩
    exact Nat.not_le.mp fun long => blockStores_outside long inside
  · intro short
    refine ⟨follow_inside (blockStores_follow addr data) ?_,fun request sent received handed _ => ?_⟩
    · rw [Nat.zero_add,blockStores_filled,Nat.mod_eq_of_lt short]
    · rw [writeBlock_request p id addr short] at handed
      cases handed
      rfl

section
variable {width : Nat} {ids : List UInt8} {data : List (Vector UInt8 width)}

theorem values_sized (ids : List UInt8) (data : List (Vector UInt8 width)) : ∀ node ∈ ids.zip (data.map Vector.toList), node.2.length = width := by
  rintro ⟨id,value⟩ member
  obtain ⟨v,_,rfl⟩ := List.mem_map.mp (List.of_mem_zip member).2
  exact v.length_toList

theorem nodes_length (nodes : List (UInt8 × List UInt8)) (sized : ∀ node ∈ nodes, node.2.length = width) :
    (nodes.flatMap fun (id,value) => id :: value).length = (width + 1) * nodes.length := by
  induction nodes with
  | nil => simp
  | cons node nodes ih =>
      obtain ⟨first,rest⟩ := List.forall_mem_cons.mp sized
      simp [ih rest,first,Nat.mul_add]
      omega

theorem syncWriteData_hands (p : ExxxProtocol) (addr : Nat) (paired : ids.length = data.length) (small : width < 2^16)
    (few : ids.length < 2^8) : Inside (syncSize width ids.length) (syncStores width addr (ids.zip (data.map Vector.toList))) ∧
      syncSize width ids.length = (width + 1) * ids.length + 4 ∧
      p.syncWriteData width ids addr data = some (.ok ⟨kBroadcastId,kInstructionSyncWrite,(toLe 2 addr ++ toLe 2 width ++
        (ids.zip (data.map Vector.toList)).flatMap fun (id,value) => id :: value).take (syncSize width ids.length % 2^16)⟩) := by
  have narrow : width % 2^16 = width := Nat.mod_eq_of_lt small
  have size : syncSize width ids.length = (width + 1) * ids.length + 4 := by rw [syncSize,narrow,Nat.mod_eq_of_lt few]
  generalize nodesAre : ids.zip (data.map Vector.toList) = nodes
  have sized : ∀ node ∈ nodes, node.2.length = width := by rw [← nodesAre]; exact values_sized ids data
  have count : nodes.length = ids.length := by simp [← nodesAre,paired]
  have follow : Follow 0 (syncStores width addr nodes) := by
    rw [syncStores,narrow]
    refine ⟨rfl,by simp,?_⟩
    simpa using nodeStores_follow (i := 0) sized
  have bytes : (syncStores width addr nodes).flatMap Prod.snd =
      toLe 2 addr ++ toLe 2 width ++ nodes.flatMap fun (id,value) => id :: value := by
    rw [syncStores,narrow]
    simp [nodeStores_bytes]
  have filled : ((syncStores width addr nodes).flatMap Prod.snd).length = syncSize width ids.length := by
    rw [bytes,size,List.length_append,List.length_append,toLe_length,toLe_length,nodes_length nodes sized,count]
    omega
  refine ⟨follow_inside follow (by rw [filled,Nat.zero_add]),size,?_⟩
  obtain ⟨rest,stored⟩ := storeEach_resized p follow filled
  rw [syncWriteData_stores p addr paired,nodesAre,stored,Option.map_some,
    List.take_append_of_le_length (by rw [filled]; exact Nat.mod_le _ _),bytes]

theorem syncWriteData_empty (p : ExxxProtocol) (width addr : Nat) :
    p.syncWriteData width [] addr [] = some (.ok ⟨kBroadcastId,kInstructionSyncWrite,toLe 2 addr ++ toLe 2 (width % 2^16)⟩) := by
  have follow : Follow 0 (syncStores width addr []) := ⟨rfl,by simp,trivial⟩
  obtain ⟨rest,stored⟩ := @storeEach_resized p 4 _ follow (by simp [syncStores,nodeStores])
  have size : syncSize width ([] : List UInt8).length = 4 := by simp [syncSize]
  have hands := @syncWriteData_stores p width [] addr [] rfl
  rw [List.zip_nil_left,size,stored] at hands
  rw [hands]
  simp [syncStores,nodeStores,List.take_append]

theorem nodes_fit {addr : Nat} (paired : ids.length = data.length) (some : ids ≠ [])
    (inside : Inside (syncSize width ids.length) (syncStores width addr (ids.zip (data.map Vector.toList)))) :
    width < 2^16 ∧ ids.length < 2^8 := by
  have count : (ids.zip (data.map Vector.toList)).length = ids.length := by simp [paired]
  have sized := values_sized ids data
  generalize ids.zip (data.map Vector.toList) = nodes at count sized inside
  rcases List.eq_nil_or_concat' nodes with rfl | ⟨front,⟨id,value⟩,rfl⟩
  · exact absurd (List.length_eq_zero_iff.mp count.symm) some
  have whole : value.length = width := sized (id,value) (by simp)
  have last := inside _ (List.mem_cons_of_mem _ (List.mem_cons_of_mem _ (nodeStores_last (width % 2^16) 0 front id value)))
  rw [← count,syncSize] at last
  simp only [List.length_append,List.length_singleton] at last count
  rw [whole,Nat.zero_add,Nat.mul_comm (width % 2^16 + 1)] at last
  have few : front.length + 1 < 2^8 := by
    by_contra many
    have fewer : (front.length + 1) % 2^8 ≤ front.length := by omega
    have below := Nat.mul_le_mul_right (width % 2^16 + 1) fewer
    omega
  rw [Nat.mod_eq_of_lt few,Nat.succ_mul] at last
  omega

end

theorem syncWriteData_carries_iff (p : ExxxProtocol) (width : Nat) (ids : List UInt8) (addr : Nat) (data : List (Vector UInt8 width)) :
    p.NodesCarried width ids addr data ↔ ids.length ≠ data.length ∨
      (width < 2^16 ∧ ids.length < 2^8 ∧ (width + 1) * ids.length + 4 < 2^16) := by
  by_cases paired : ids.length = data.length
  case neg => exact iff_of_true (fun same => absurd same paired) (.inl paired)
  constructor
  · intro carried
    obtain ⟨inside,payload⟩ := carried paired
    have fit : width < 2^16 ∧ ids.length < 2^8 := by
      by_cases none : ids = []
      · subst none
        obtain rfl := List.length_eq_zero_iff.mp paired.symm
        obtain ⟨field,two,holds,_⟩ := payload _ .success (syncWriteData_empty p width addr) rfl
        have small := fromLe_lt field
        rw [two,holds] at small
        exact ⟨small,by decide⟩
      · exact nodes_fit paired none inside
    obtain ⟨_,size,handed⟩ := syncWriteData_hands p addr paired fit.1 fit.2
    obtain ⟨field,two,_,sent⟩ := payload _ .success handed rfl
    have short := congrArg List.length sent
    have count : (ids.zip (data.map Vector.toList)).length = ids.length := by simp [paired]
    have nodes := nodes_length _ (values_sized ids data)
    simp only [List.length_take,List.length_append,toLe_length,two,nodes,count,size] at short
    exact .inr ⟨fit.1,fit.2,by omega⟩
  · rintro (other | ⟨small,few,fits⟩)
    · exact absurd paired other
    intro _
    obtain ⟨inside,size,handed⟩ := syncWriteData_hands p addr paired small few
    refine ⟨inside,fun request sent same _ => ⟨toLe 2 width,toLe_length 2 width,?_,?_⟩⟩
    · exact (fromLe_toLe 2 width).trans (Nat.mod_eq_of_lt small)
    · rw [handed] at same
      cases same
      refine List.take_of_length_le ?_
      have count : (ids.zip (data.map Vector.toList)).length = ids.length := by simp [paired]
      have nodes := nodes_length _ (values_sized ids data)
      simp only [List.length_append,toLe_length,nodes,count,size]
      omega

theorem writes_carry_iff (p : ExxxProtocol) :
    (∀ id addr data, p.BlockCarried id addr data ↔ data.length < 2^8) ∧
    ∀ width ids addr (data : List (Vector UInt8 width)), p.NodesCarried width ids addr data ↔ ids.length ≠ data.length ∨
      (width < 2^16 ∧ ids.length < 2^8 ∧ (width + 1) * ids.length + 4 < 2^16) :=
  ⟨p.writeBlock_carries_iff,p.syncWriteData_carries_iff⟩

theorem block_not_carried : ¬ ∀ (p : ExxxProtocol) id addr data, p.BlockCarried id addr data := by
  intro every
  have long : 2^8 ≤ (List.replicate 256 (0 : UInt8)).length := Nat.le_of_eq List.length_replicate.symm
  exact blockStores_outside long (every initial 2 0x1234 (List.replicate 256 0)).1

end ExxxProtocol
end HsrbDrivers.Servomotor
