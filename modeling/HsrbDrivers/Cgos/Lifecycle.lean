import HsrbDrivers.Cgos.HsrbCgosHw
import HsrbDrivers.Cgos.HsrbCgosLib

namespace HsrbDrivers.Cgos

structure ControlIn where
  fct : UInt32
  handle : UInt32
  type : UInt32
  pars : List UInt32
deriving DecidableEq,Repr

def kCgosDrvGetVerion : UInt32 := 0
def kCgosBoardClose : UInt32 := 1
def kCgosBoardCount : UInt32 := 2
def kCgosBoardOpen : UInt32 := 3
def kCgosIORead : UInt32 := 41
def kCgosIOWrite : UInt32 := 42

def kCgosBoardClassDefault : UInt32 := 0
def kCgosBoardOpenFlagsDefault : UInt32 := 0

inductive Traced where
  | opened (fd : Int)
  | ioctl (fd : Int) (control : ControlIn) (result : IoctlResult)
  | closed (fd : Int)

def Traced.call : Traced → SystemCall
  | .opened fd => .opened fd
  | .ioctl fd _ _ => .ioctl fd
  | .closed fd => .closed fd

def IoctlResult.answer (result : IoctlResult) : Option (UInt32 × UInt32) :=
  if result.ret < 0 ∨ result.cb < 12 then none else if result.status ≠ 0 then none else some result.rets

structure Driver where
  fd : Int
  lastError : UInt32
  trace : List Traced

namespace Driver

def construct : Driver := ⟨-1,0,[]⟩

def cgosDriver (d : Driver) (control : ControlIn) (result : IoctlResult) : Option (UInt32 × UInt32) × Driver :=
  let d := {d with trace := d.trace ++ [.ioctl d.fd control result]}
  if result.ret < 0 ∨ result.cb < 12 then (none,d)
  else if result.status ≠ 0 then (none,{d with lastError := result.status})
  else (some result.rets,d)

def finalizeCgos (d : Driver) : Driver :=
  if 0 ≤ d.fd then {d with fd := -1,trace := d.trace ++ [.closed d.fd]} else d

def initializeCgos (d : Driver) (fd : Int) (version : IoctlResult) : Bool × Driver :=
  let d := {d with trace := d.trace ++ [.opened fd]}
  if 0 ≤ fd then
    match {d with fd := fd}.cgosDriver ⟨kCgosDrvGetVerion,0,0,[0,0,0,0]⟩ version with
    | (some rets,d) => if rets.1 >>> 24 = kCgosDrvVerMajor then (true,d) else (false,d.finalizeCgos)
    | (none,d) => (false,d)
  else (false,d)

def boardOpen (d : Driver) (boardClass num flags : UInt32) (result : IoctlResult) : Option UInt32 × Driver :=
  let (rets,d) := d.cgosDriver ⟨kCgosBoardOpen,0,num,[boardClass,flags,0,0]⟩ result
  (rets.map Prod.fst,d)

def boardClose (d : Driver) (handle : UInt32) (result : IoctlResult) : Bool × Driver :=
  let (rets,d) := d.cgosDriver ⟨kCgosBoardClose,handle,0,[0,0,0,0]⟩ result
  (rets.isSome,d)

def getIOCount (d : Driver) (handle : UInt32) (result : IoctlResult) : Option UInt32 × Driver :=
  let (rets,d) := d.cgosDriver ⟨kCgosBoardCount,handle,0,[0,0,0,0]⟩ result
  (rets.map Prod.fst,d)

def ioRead (d : Driver) (handle unit : UInt32) (result : IoctlResult) : Option UInt32 × Driver :=
  let (rets,d) := d.cgosDriver ⟨kCgosIORead,handle,unit,[0,0,0,0]⟩ result
  (rets.map Prod.fst,d)

def ioWrite (d : Driver) (handle unit writeData : UInt32) (result : IoctlResult) : Bool × Driver :=
  let (rets,d) := d.cgosDriver ⟨kCgosIOWrite,handle,unit,[writeData,0,0,0]⟩ result
  (rets.isSome,d)

def toLib (d : Driver) : HsrbCgosLib := ⟨d.fd,d.lastError,d.trace.map Traced.call⟩

theorem cgosDriver_toLib (d : Driver) (control : ControlIn) (result : IoctlResult) :
    d.toLib.cgosDriver result = ((d.cgosDriver control result).1,(d.cgosDriver control result).2.toLib) := by
  unfold HsrbCgosLib.cgosDriver cgosDriver
  split
  · simp [toLib,Traced.call]
  · split <;> simp [toLib,Traced.call]

theorem finalizeCgos_toLib (d : Driver) : d.toLib.finalizeCgos.2 = d.finalizeCgos.toLib := by
  unfold HsrbCgosLib.finalizeCgos finalizeCgos
  by_cases held : 0 ≤ d.fd <;> simp [toLib,Traced.call,held]

theorem initializeCgos_toLib (d : Driver) (fd : Int) (version : IoctlResult) :
    d.toLib.initializeCgos fd version = ((d.initializeCgos fd version).1,(d.initializeCgos fd version).2.toLib) := by
  unfold HsrbCgosLib.initializeCgos initializeCgos
  by_cases opened : 0 ≤ fd
  · have same := cgosDriver_toLib {d with fd := fd,trace := d.trace ++ [.opened fd]} ⟨kCgosDrvGetVerion,0,0,[0,0,0,0]⟩ version
    simp only [toLib,List.map_append,List.map_cons,List.map_nil,Traced.call] at same
    simp only [if_pos opened,toLib,same]
    generalize cgosDriver _ _ version = result
    obtain ⟨rets,after⟩ := result
    cases rets with
    | none => rfl
    | some rets =>
        simp only
        split
        · rfl
        · rw [show (HsrbCgosLib.mk after.fd after.lastError (after.trace.map Traced.call)) = after.toLib from rfl,finalizeCgos_toLib]
          rfl
  · simp [opened,toLib,Traced.call]

end Driver

inductive Lifecycle where
  | unconfigured
  | inactive
  | active
  | finalized
  | destroyed
deriving DecidableEq,Repr

structure CgosSystem where
  driver : Driver
  hw : HsrbCgosHw
  lifecycle : Lifecycle

namespace CgosSystem

-- `on_error` is not overridden, and its default leads to the end.
def afterCallback (ok : Bool) (next : Lifecycle) : Lifecycle := if ok then next else .finalized

def configured (driver : Driver) (result : Except Fatal Unit × HsrbCgosHw) : CgosSystem :=
  ⟨driver,result.2,afterCallback result.1.isOk .inactive⟩

def onConfigure (s : CgosSystem) (fd : Int) (version board count : IoctlResult) : CgosSystem :=
  match s.driver.initializeCgos fd version with
  | (false,driver) => configured driver (s.hw.onConfigure false none none)
  | (true,driver) => match driver.boardOpen kCgosBoardClassDefault 0 kCgosBoardOpenFlagsDefault board with
    | (none,driver) => configured driver (s.hw.onConfigure true none none)
    | (some handle,driver) =>
      let (ioCount,driver) := driver.getIOCount handle count
      configured driver (s.hw.onConfigure true (some handle.toBitVec) (ioCount.map UInt32.toBitVec))

def onCleanup (s : CgosSystem) (result : IoctlResult) : CgosSystem :=
  ⟨(s.driver.boardClose ⟨s.hw.cgosHandle⟩ result).2.finalizeCgos,s.hw,.unconfigured⟩

def read (s : CgosSystem) (result : IoctlResult) : CgosSystem :=
  if s.hw.cgosHandle = 0 then s else
    let (value,driver) := s.driver.ioRead ⟨s.hw.cgosHandle⟩ ⟨s.hw.cgosUnit⟩ result
    let (ok,hw) := s.hw.read (value.map UInt32.toBitVec)
    ⟨driver,hw,afterCallback ok s.lifecycle⟩

def write (s : CgosSystem) (result : IoctlResult) : CgosSystem :=
  match (s.hw.write true).2 with
  | none => s
  | some word =>
    let (ok,driver) := s.driver.ioWrite ⟨s.hw.cgosHandle⟩ ⟨s.hw.cgosUnit⟩ ⟨word⟩ result
    ⟨driver,s.hw,afterCallback (s.hw.write ok).1 s.lifecycle⟩

inductive Step (s : CgosSystem) : CgosSystem → Prop where
  | configure (fd : Int) (version board count : IoctlResult) : s.lifecycle = .unconfigured →
      Step s (s.onConfigure fd version board count)
  | activate : s.lifecycle = .inactive → Step s {s with lifecycle := .active}
  | deactivate : s.lifecycle = .active → Step s {s with lifecycle := .inactive}
  | cleanup (result : IoctlResult) : s.lifecycle = .inactive → Step s (s.onCleanup result)
  | read (result : IoctlResult) : s.lifecycle = .inactive ∨ s.lifecycle = .active → Step s (s.read result)
  | write (result : IoctlResult) : s.lifecycle = .inactive ∨ s.lifecycle = .active → Step s (s.write result)
  | command (i : Nat) (value : Float) : Step s {s with hw := s.hw.command i value}
  | shutdown : s.lifecycle ≠ .destroyed → Step s {s with lifecycle := .finalized}
  | destroy : s.lifecycle ≠ .destroyed → Step s {s with driver := s.driver.finalizeCgos,lifecycle := .destroyed}

-- A plugin behind its `on_init`; what its handle and unit are then is not defined.
def Begun (s : CgosSystem) : Prop := s.driver = .construct ∧ s.lifecycle = .unconfigured

end CgosSystem

structure Session where
  fd : Int
  board : Option UInt32
deriving DecidableEq,Repr

-- The use that is meant of a descriptor and a board: one descriptor at a time, a board only where none is open, the
-- inputs, outputs and the count only of the open board and of unit 0, and everything given back in its order. A board is
-- closed before the descriptor also where none could be opened, and even without a descriptor.
def follow (session : Option Session) : Traced → Option (Option Session)
  | .opened fd => if session.isSome then none else some (if 0 ≤ fd then some ⟨fd,none⟩ else none)
  | .ioctl fd control result => match session with
    | none => if fd = -1 ∧ control.fct = kCgosBoardClose ∧ control.handle = 0 then some none else none
    | some s =>
      if fd ≠ s.fd then none
      else if control.fct = kCgosDrvGetVerion then some s
      else if control.fct = kCgosBoardOpen then
        if s.board.isSome then none else some (some {s with board := result.answer.map Prod.fst})
      else if control.fct = kCgosBoardClose then
        if control.handle = s.board.getD 0 then some (some {s with board := none}) else none
      else if s.board = some control.handle ∧ control.type = 0 then some s else none
  | .closed fd => match session with
    | none => none
    | some s => if fd = s.fd then some none else none

def followed (trace : List Traced) : Option (Option Session) := trace.foldlM follow none

theorem followed_snoc {trace : List Traced} {session : Option Session} (ahead : followed trace = some session) (call : Traced) :
    followed (trace ++ [call]) = follow session call := by
  unfold followed at ahead ⊢
  rw [List.foldlM_append,ahead]
  simp

structure Driver.Holds (d : Driver) (session : Option Session) : Prop where
  followed : followed d.trace = some session
  fd : d.fd = (session.map Session.fd).getD (-1)
  held : descriptors (d.trace.map Traced.call) = (session.map Session.fd).toList
  valid : ∀ s, session = some s → 0 ≤ s.fd

namespace Driver

theorem construct_holds : construct.Holds none := ⟨rfl,rfl,rfl,fun _ same => by cases same⟩

theorem cgosDriver_answer (d : Driver) (control : ControlIn) (result : IoctlResult) :
    (d.cgosDriver control result).1 = result.answer ∧ (d.cgosDriver control result).2.fd = d.fd ∧
      (d.cgosDriver control result).2.trace = d.trace ++ [.ioctl d.fd control result] := by
  unfold cgosDriver IoctlResult.answer
  split
  · exact ⟨rfl,rfl,rfl⟩
  · split <;> exact ⟨rfl,rfl,rfl⟩

theorem cgosDriver_holds {d : Driver} {session after : Option Session} (holds : d.Holds session) {control : ControlIn}
    {result : IoctlResult} (fine : follow session (.ioctl d.fd control result) = some after)
    (same : after.map Session.fd = session.map Session.fd) : (d.cgosDriver control result).2.Holds after := by
  obtain ⟨_,fd,trace⟩ := cgosDriver_answer d control result
  refine ⟨?_,?_,?_,?_⟩
  · rw [trace,followed_snoc holds.followed,fine]
  · rw [fd,same]
    exact holds.fd
  · rw [trace,same,← holds.held]
    simp [descriptors_append,Traced.call,track]
  · intro s held
    cases session with
    | none => simp [held] at same
    | some before =>
        rw [held] at same
        exact Option.some.inj same ▸ holds.valid before rfl

theorem finalizeCgos_holds {d : Driver} {session : Option Session} (holds : d.Holds session) : d.finalizeCgos.Holds none := by
  unfold finalizeCgos
  cases session with
  | none =>
      have unset := holds.fd
      simp only [Option.map_none,Option.getD_none] at unset
      rw [if_neg (by omega)]
      exact holds
  | some s =>
      have set : d.fd = s.fd := holds.fd
      have valid := holds.valid s rfl
      rw [if_pos (by omega)]
      refine ⟨?_,rfl,?_,fun _ same => by cases same⟩
      · rw [followed_snoc holds.followed,set]
        simp [follow]
      · simp [descriptors_append,holds.held,Traced.call,track,set]

theorem initializeCgos_holds {d : Driver} (holds : d.Holds none) (fd : Int) (version : IoctlResult) :
    ∃ session, (d.initializeCgos fd version).2.Holds session ∧ (∀ s, session = some s → s.board = none) ∧
      ((d.initializeCgos fd version).1 = true → session.isSome = true) := by
  have opened : 0 ≤ fd → Holds {d with fd := fd,trace := d.trace ++ [.opened fd]} (some ⟨fd,none⟩) := by
    intro valid
    refine ⟨?_,rfl,?_,?_⟩
    · rw [followed_snoc holds.followed]
      simp [follow,valid]
    · simp [descriptors_append,holds.held,Traced.call,track,valid]
    · intro s same
      cases same
      exact valid
  unfold initializeCgos
  by_cases valid : 0 ≤ fd
  · have asked := @cgosDriver_holds _ _ (some ⟨fd,none⟩) (opened valid) ⟨kCgosDrvGetVerion,0,0,[0,0,0,0]⟩ version (by simp [follow]) rfl
    simp only [if_pos valid]
    split
    · rename_i rets after driven
      rw [driven] at asked
      split
      · exact ⟨_,asked,fun s same => Option.some.inj same ▸ rfl,fun _ => rfl⟩
      · exact ⟨none,finalizeCgos_holds asked,fun _ same => (by cases same),fun failed => (by cases failed)⟩
    · rename_i after driven
      rw [driven] at asked
      exact ⟨_,asked,fun s same => Option.some.inj same ▸ rfl,fun failed => (by cases failed)⟩
  · simp only [if_neg valid]
    refine ⟨none,⟨?_,holds.fd,?_,fun _ same => (by cases same)⟩,fun _ same => (by cases same),fun failed => (by cases failed)⟩
    · rw [followed_snoc holds.followed]
      simp [follow,valid]
    · simp [valid,descriptors_append,holds.held,Traced.call,track]

theorem boardOpen_holds {d : Driver} {fd : Int} (holds : d.Holds (some ⟨fd,none⟩)) (boardClass num flags : UInt32) (result : IoctlResult) :
    (d.boardOpen boardClass num flags result).2.Holds (some ⟨fd,(d.boardOpen boardClass num flags result).1⟩) := by
  have same : d.fd = fd := holds.fd
  unfold boardOpen
  simp only [(cgosDriver_answer d _ result).1]
  exact cgosDriver_holds holds (by simp [follow,same,kCgosDrvGetVerion,kCgosBoardOpen]) rfl

theorem board_holds {d : Driver} {s : Session} (holds : d.Holds (some s)) {control : ControlIn}
    (known : control.fct = kCgosBoardCount ∨ control.fct = kCgosIORead ∨ control.fct = kCgosIOWrite)
    (board : s.board = some control.handle) (unit : control.type = 0) (result : IoctlResult) :
    (d.cgosDriver control result).2.Holds (some s) := by
  have same : d.fd = s.fd := holds.fd
  apply cgosDriver_holds holds _ rfl
  rcases known with fct | fct | fct <;>
    simp [follow,same,fct,board,unit,kCgosDrvGetVerion,kCgosBoardOpen,kCgosBoardClose,kCgosBoardCount,kCgosIORead,kCgosIOWrite]

theorem boardClose_holds {d : Driver} {session : Option Session} (holds : d.Holds session) {handle : UInt32}
    (open' : handle = (session.bind Session.board).getD 0) (result : IoctlResult) :
    ∃ after, (d.boardClose handle result).2.Holds after := by
  have same := holds.fd
  cases session with
  | none => exact ⟨none,cgosDriver_holds holds (by simp [follow,same,open']) rfl⟩
  | some s =>
      refine ⟨some {s with board := none},cgosDriver_holds holds ?_ rfl⟩
      simp only [Option.map_some,Option.getD_some] at same
      simp [follow,same,open',kCgosDrvGetVerion,kCgosBoardOpen,kCgosBoardClose]

end Driver

namespace CgosSystem

def Configured (s : CgosSystem) : Prop := s.lifecycle = .inactive ∨ s.lifecycle = .active

structure Kept (s : CgosSystem) (session : Option Session) : Prop where
  driver : s.driver.Holds session
  between : s.lifecycle = .unconfigured ∨ s.lifecycle = .destroyed → session = none
  handle : s.Configured → s.hw.cgosHandle = ((session.bind Session.board).getD 0).toBitVec
  unit : s.Configured → s.hw.cgosHandle ≠ 0 → s.hw.cgosUnit = 0

theorem begun_kept {s : CgosSystem} (begun : Begun s) : s.Kept none := by
  obtain ⟨constructed,unconfigured⟩ := begun
  refine ⟨?_,fun _ => rfl,?_,?_⟩
  · rw [constructed]
    exact Driver.construct_holds
  · rintro (inactive | active) <;> simp_all
  · rintro (inactive | active) <;> simp_all

theorem configured_kept {driver : Driver} {session : Option Session} (holds : driver.Holds session) {result : Except Fatal Unit × HsrbCgosHw}
    (handle : result.1.isOk = true → result.2.cgosHandle = ((session.bind Session.board).getD 0).toBitVec)
    (unit : result.1.isOk = true → result.2.cgosHandle ≠ 0 → result.2.cgosUnit = 0) : (configured driver result).Kept session := by
  unfold configured afterCallback
  by_cases ok : result.1.isOk = true
  · exact ⟨holds,fun state => (by simp [ok] at state),fun _ => handle ok,fun _ => unit ok⟩
  · exact ⟨holds,fun state => (by simp [ok] at state),fun state => (by simp [Configured,ok] at state),
      fun state => (by simp [Configured,ok] at state)⟩

theorem onConfigure_kept {s : CgosSystem} {session : Option Session} (kept : s.Kept session) (unconfigured : s.lifecycle = .unconfigured)
    (fd : Int) (version board count : IoctlResult) : ∃ after, (s.onConfigure fd version board count).Kept after := by
  obtain rfl := kept.between (.inl unconfigured)
  obtain ⟨session,ready,blank,succeeds⟩ := Driver.initializeCgos_holds kept.driver fd version
  unfold onConfigure
  split
  · rename_i driver failed
    rw [failed] at ready
    refine ⟨session,configured_kept ready (fun _ => ?_) fun _ set => absurd rfl set⟩
    cases session with
    | none => rfl
    | some one =>
        simp only [Option.bind_some,blank one rfl]
        rfl
  rename_i driver done
  rw [done] at ready succeeds
  obtain ⟨one,rfl⟩ := Option.isSome_iff_exists.mp (succeeds rfl)
  obtain ⟨held,opened⟩ := one
  obtain rfl := blank _ rfl
  have onBoard := Driver.boardOpen_holds ready kCgosBoardClassDefault 0 kCgosBoardOpenFlagsDefault board
  split
  · rename_i after refused
    rw [refused] at onBoard
    exact ⟨_,configured_kept onBoard (fun _ => rfl) fun _ set => absurd rfl set⟩
  · rename_i handle after opened
    rw [opened] at onBoard
    have counted := @Driver.board_holds _ _ onBoard ⟨kCgosBoardCount,handle,0,[0,0,0,0]⟩ (.inl rfl) rfl rfl count
    refine ⟨_,configured_kept counted ?_ ?_⟩
    all_goals
      simp only [HsrbCgosHw.onConfigure]
      split
      · split
        · exact fun _ => by simp
        · exact fun failed => by cases failed
      · exact fun failed => by cases failed

theorem onCleanup_kept {s : CgosSystem} {session : Option Session} (kept : s.Kept session) (inactive : s.lifecycle = .inactive)
    (result : IoctlResult) : (s.onCleanup result).Kept none := by
  have same : (⟨s.hw.cgosHandle⟩ : UInt32) = (session.bind Session.board).getD 0 := by
    rw [kept.handle (.inl inactive)]
  obtain ⟨after,closed⟩ := Driver.boardClose_holds kept.driver same result
  refine ⟨Driver.finalizeCgos_holds closed,fun _ => rfl,?_,?_⟩
  · rintro (state | state) <;> cases state
  · rintro (state | state) <;> cases state

theorem Kept.session {s : CgosSystem} {session : Option Session} (kept : s.Kept session) (configured : s.Configured)
    (set : s.hw.cgosHandle ≠ 0) : ∃ one, session = some one ∧ one.board = some ⟨s.hw.cgosHandle⟩ := by
  have same := kept.handle configured
  cases session with
  | none => exact absurd same set
  | some one =>
      refine ⟨one,rfl,?_⟩
      cases board : one.board with
      | none =>
          simp only [Option.bind_some,board] at same
          exact absurd same set
      | some handle =>
          simp only [Option.bind_some,board,Option.getD_some] at same
          rw [same]

theorem called_kept {s : CgosSystem} {session : Option Session} (kept : s.Kept session) (configured : s.Configured) {driver : Driver}
    (holds : driver.Holds session) {hw : HsrbCgosHw} (handle : hw.cgosHandle = s.hw.cgosHandle) (unit : hw.cgosUnit = s.hw.cgosUnit)
    (ok : Bool) : CgosSystem.Kept ⟨driver,hw,afterCallback ok s.lifecycle⟩ session := by
  refine ⟨holds,?_,fun _ => handle.trans (kept.handle configured),fun _ set => ?_⟩
  · intro between
    cases ok with
    | true => rcases configured with state | state <;> simp [afterCallback,state] at between
    | false => simp [afterCallback] at between
  · rw [handle] at set
    exact unit.trans (kept.unit configured set)

theorem read_kept {s : CgosSystem} {session : Option Session} (kept : s.Kept session) (configured : s.Configured) (result : IoctlResult) :
    (s.read result).Kept session := by
  unfold read
  by_cases unset : s.hw.cgosHandle = 0
  · rw [if_pos unset]
    exact kept
  · rw [if_neg unset]
    obtain ⟨one,rfl,board⟩ := kept.session configured unset
    have unit : (⟨s.hw.cgosUnit⟩ : UInt32) = 0 := by
      rw [kept.unit configured unset]
      rfl
    have asked := @Driver.board_holds _ _ kept.driver ⟨kCgosIORead,⟨s.hw.cgosHandle⟩,⟨s.hw.cgosUnit⟩,[0,0,0,0]⟩ (.inr (.inl rfl))
      board unit result
    have alone : ∀ value, (s.hw.read value).2.cgosHandle = s.hw.cgosHandle ∧ (s.hw.read value).2.cgosUnit = s.hw.cgosUnit := by
      intro value
      unfold HsrbCgosHw.read
      rw [if_neg unset]
      cases value <;> exact ⟨rfl,rfl⟩
    exact called_kept kept configured asked (alone _).1 (alone _).2 _

theorem write_kept {s : CgosSystem} {session : Option Session} (kept : s.Kept session) (configured : s.Configured) (result : IoctlResult) :
    (s.write result).Kept session := by
  unfold write
  split
  · exact kept
  · rename_i word passed
    have set : s.hw.cgosHandle ≠ 0 := by
      intro unset
      simp [HsrbCgosHw.write,unset] at passed
    obtain ⟨one,rfl,board⟩ := kept.session configured set
    have unit : (⟨s.hw.cgosUnit⟩ : UInt32) = 0 := by
      rw [kept.unit configured set]
      rfl
    have asked := @Driver.board_holds _ _ kept.driver ⟨kCgosIOWrite,⟨s.hw.cgosHandle⟩,⟨s.hw.cgosUnit⟩,[⟨word⟩,0,0,0]⟩ (.inr (.inr rfl))
      board unit result
    exact called_kept kept configured asked rfl rfl _

theorem step_kept {s t : CgosSystem} {session : Option Session} (kept : s.Kept session) (step : Step s t) :
    ∃ after, t.Kept after := by
  cases step with
  | configure fd version board count unconfigured => exact onConfigure_kept kept unconfigured fd version board count
  | activate inactive =>
      exact ⟨session,kept.driver,fun state => (by simp at state),fun _ => kept.handle (.inl inactive),fun _ => kept.unit (.inl inactive)⟩
  | deactivate active =>
      exact ⟨session,kept.driver,fun state => (by simp at state),fun _ => kept.handle (.inr active),fun _ => kept.unit (.inr active)⟩
  | cleanup result inactive => exact ⟨none,onCleanup_kept kept inactive result⟩
  | read result configured => exact ⟨session,read_kept kept configured result⟩
  | write result configured => exact ⟨session,write_kept kept configured result⟩
  | command i value => exact ⟨session,kept.driver,kept.between,kept.handle,kept.unit⟩
  | shutdown => exact ⟨session,kept.driver,fun state => (by simp at state),fun state => (by simp [Configured] at state),
      fun state => (by simp [Configured] at state)⟩
  | destroy => exact ⟨none,Driver.finalizeCgos_holds kept.driver,fun _ => rfl,fun state => (by simp [Configured] at state),
      fun state => (by simp [Configured] at state)⟩

-- In whatever order the callbacks come that the states of the component allow, and whatever the system answers, the system
-- is asked as it is meant to be: the one open descriptor is used, its board is read and written where it is open, and
-- nothing is left open behind a cleanup or the object. So the descriptor that a failing `Initialize` keeps is not lost here.
theorem lifecycle_followed {s : CgosSystem} (reached : Reachable Begun Step s) :
    ∃ session, followed s.driver.trace = some session ∧
      descriptors s.driver.toLib.calls = (session.map Session.fd).toList ∧
      (s.lifecycle = .unconfigured ∨ s.lifecycle = .destroyed → session = none) ∧
      (s.Configured → s.hw.cgosHandle ≠ 0 → ∃ one, session = some one ∧ one.board = some ⟨s.hw.cgosHandle⟩) := by
  have kept : ∃ session, s.Kept session := by
    induction reached with
    | initial begun => exact ⟨none,begun_kept begun⟩
    | step _ taken ih =>
        obtain ⟨before,kept⟩ := ih
        exact step_kept kept taken
  obtain ⟨session,kept⟩ := kept
  exact ⟨session,kept.driver.followed,kept.driver.held,kept.between,kept.session⟩

def answers (value : UInt32) : IoctlResult := ⟨0,12,0,(value,0)⟩
def silent : IoctlResult := ⟨-1,0,0,(0,0)⟩
def plugin : CgosSystem := ⟨.construct,⟨0,0,[gpioOutput [] 4]⟩,.unconfigured⟩

-- A board is opened and used, and then a driver is tried that does not answer.
def opened : CgosSystem := plugin.onConfigure 3 (answers (kCgosDrvVerMajor <<< 24)) (answers 7) (answers 1)
def active : CgosSystem := {opened with lifecycle := .active}
def commanded : CgosSystem := {active.read (answers 0) with hw := (active.read (answers 0)).hw.command 0 1.0}
def used : CgosSystem := {commanded.write (answers 0) with lifecycle := .inactive}
def reopened : CgosSystem := (used.onCleanup (answers 0)).onConfigure 4 silent silent silent

theorem reopened_cleaned : used.driver.trace.length = 6 ∧ descriptors used.driver.toLib.calls = [3] ∧
    descriptors reopened.driver.toLib.calls = [4] ∧ descriptors (reopened.onCleanup silent).driver.toLib.calls = [] := by
  have begun : Reachable Begun Step opened := .step (.initial ⟨rfl,rfl⟩) (.configure 3 _ _ _ rfl)
  have asked : Reachable Begun Step (active.read (answers 0)) := (begun.step (.activate rfl)).step (.read _ (.inr rfl))
  have written : Reachable Begun Step (commanded.write (answers 0)) := (asked.step (.command 0 1.0)).step (.write _ (.inr rfl))
  have again : Reachable Begun Step reopened :=
    ((written.step (.deactivate (by decide))).step (.cleanup _ rfl)).step (.configure 4 _ _ _ rfl)
  obtain ⟨session,_,held,between,_⟩ := lifecycle_followed (again.step (.cleanup silent rfl))
  refine ⟨by decide,by decide,by decide,?_⟩
  rw [held,between (.inl rfl)]
  rfl

end CgosSystem
end HsrbDrivers.Cgos
