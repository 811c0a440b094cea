import Mathlib.Data.List.Infix

namespace HsrbDrivers.Cgos

-- What `Ioctl` returns and writes: `cb` and `ctrl_out`, which has twelve bytes.
structure IoctlResult where
  ret : Int
  cb : UInt32
  status : UInt32
  rets : UInt32 × UInt32

def kCgosDrvVerMajor : UInt32 := 1

inductive SystemCall where
  | opened (fd : Int)
  | ioctl (fd : Int)
  | closed (fd : Int)
deriving DecidableEq,Repr

structure HsrbCgosLib where
  fd : Int
  lastError : UInt32
  calls : List SystemCall

namespace HsrbCgosLib

def construct : HsrbCgosLib := ⟨-1,0,[]⟩

-- `CgosDriver` with the result of `Ioctl`; the values are those for `pret0` and `pret1`.
def cgosDriver (c : HsrbCgosLib) (result : IoctlResult) : Option (UInt32 × UInt32) × HsrbCgosLib :=
  let c := {c with calls := c.calls ++ [.ioctl c.fd]}
  if result.ret < 0 ∨ result.cb < 12 then (none,c)
  else if result.status ≠ 0 then (none,{c with lastError := result.status})
  else (some result.rets,c)

-- The result of `Close` is not looked at.
def finalizeCgos (c : HsrbCgosLib) : Bool × HsrbCgosLib :=
  if 0 ≤ c.fd then (true,{c with fd := -1,calls := c.calls ++ [.closed c.fd]}) else (false,c)

def initializeCgos (c : HsrbCgosLib) (fd : Int) (version : IoctlResult) : Bool × HsrbCgosLib :=
  let c := {c with calls := c.calls ++ [.opened fd]}
  if 0 ≤ fd then
    match {c with fd := fd}.cgosDriver version with
    | (some rets,c) => if rets.1 >>> 24 = kCgosDrvVerMajor then (true,c) else (false,c.finalizeCgos.2)
    | (none,c) => (false,c)
  else (false,c)

end HsrbCgosLib

inductive Command where
  | initializeCgos (fd : Int) (version : IoctlResult)
  | finalizeCgos

def HsrbCgosLib.execute (c : HsrbCgosLib) : Command → Bool × HsrbCgosLib
  | .initializeCgos fd version => c.initializeCgos fd version
  | .finalizeCgos => c.finalizeCgos

def run (commands : List Command) : HsrbCgosLib := commands.foldl (fun c command => (c.execute command).2) .construct

-- The descriptors that are open behind a history. A descriptor is given back by `Close`
-- also when that returns an error.
def track (held : List Int) : SystemCall → List Int
  | .opened fd => if 0 ≤ fd then held ++ [fd] else held
  | .ioctl _ => held
  | .closed fd => held.erase fd

def descriptors (calls : List SystemCall) : List Int := calls.foldl track []

structure NoLeak (commands : List Command) : Prop where
  one : ∀ calls, calls <+: (run commands).calls → (descriptors calls).length ≤ 1
  clean : ∀ before fd version, before ++ [Command.initializeCgos fd version] <+: commands →
    ((run before).initializeCgos fd version).1 = false →
      descriptors ((run before).initializeCgos fd version).2.calls = [] ∧ ((run before).initializeCgos fd version).2.fd = -1

def IoctlResult.Succeeds (result : IoctlResult) : Prop := 0 ≤ result.ret ∧ 12 ≤ result.cb ∧ result.status = 0

-- An `Initialize` on an object without a descriptor, whose driver answers when it could be opened.
def Proper (c : HsrbCgosLib) : Command → Prop
  | .initializeCgos fd version => c.fd = -1 ∧ (0 ≤ fd → version.Succeeds)
  | .finalizeCgos => True

structure Holds (c : HsrbCgosLib) (fds : List Int) : Prop where
  held : descriptors c.calls = fds
  fd : c.fd = fds.headD (-1)
  few : fds.length ≤ 1
  valid : ∀ fd ∈ fds, 0 ≤ fd

theorem Holds.unset {c : HsrbCgosLib} {fds : List Int} (holds : Holds c fds) (unset : c.fd = -1) : fds = [] := by
  cases fds with
  | nil => rfl
  | cons fd rest =>
      have set := holds.valid fd List.mem_cons_self
      have same : c.fd = fd := holds.fd
      omega

theorem descriptors_append (calls more : List SystemCall) : descriptors (calls ++ more) = more.foldl track (descriptors calls) :=
  List.foldl_append

theorem cgosDriver_cases (c : HsrbCgosLib) (result : IoctlResult) :
    (c.cgosDriver result).2.fd = c.fd ∧ (c.cgosDriver result).2.calls = c.calls ++ [.ioctl c.fd] ∧
      (c.cgosDriver result).1 = if 0 ≤ result.ret ∧ 12 ≤ result.cb ∧ result.status = 0 then some result.rets else none := by
  unfold HsrbCgosLib.cgosDriver
  by_cases failed : result.ret < 0 ∨ result.cb < 12
  · have short : ¬ (0 ≤ result.ret ∧ 12 ≤ result.cb ∧ result.status = 0) := by
      rintro ⟨ret,cb,_⟩
      rcases failed with negative | few
      · omega
      · exact absurd few (UInt32.not_lt.mpr cb)
    simp [failed,short]
  · obtain ⟨ret,cb⟩ := not_or.mp failed
    have enough : 0 ≤ result.ret ∧ 12 ≤ result.cb := ⟨Int.not_lt.mp ret,UInt32.not_lt.mp cb⟩
    by_cases status : result.status = 0
    · simp [failed,enough,status]
    · simp [failed,status]

inductive Initialized (c : HsrbCgosLib) (fd : Int) (version : IoctlResult) : Bool × HsrbCgosLib → Prop where
  | notOpened (after : HsrbCgosLib) (refused : fd < 0) (kept : after.fd = c.fd) (calls : after.calls = c.calls ++ [.opened fd]) :
      Initialized c fd version (false,after)
  | noVersion (after : HsrbCgosLib) (opened : 0 ≤ fd) (failed : ¬ version.Succeeds) (kept : after.fd = fd)
      (calls : after.calls = c.calls ++ [.opened fd,.ioctl fd]) : Initialized c fd version (false,after)
  | otherVersion (after : HsrbCgosLib) (opened : 0 ≤ fd) (answered : version.Succeeds) (unset : after.fd = -1)
      (calls : after.calls = c.calls ++ [.opened fd,.ioctl fd,.closed fd]) : Initialized c fd version (false,after)
  | ready (after : HsrbCgosLib) (opened : 0 ≤ fd) (answered : version.Succeeds) (kept : after.fd = fd)
      (calls : after.calls = c.calls ++ [.opened fd,.ioctl fd]) : Initialized c fd version (true,after)

theorem initializeCgos_cases (c : HsrbCgosLib) (fd : Int) (version : IoctlResult) :
    Initialized c fd version (c.initializeCgos fd version) := by
  unfold HsrbCgosLib.initializeCgos
  by_cases opened : 0 ≤ fd
  · obtain ⟨kept,calls,answer⟩ := cgosDriver_cases {c with fd := fd,calls := c.calls ++ [.opened fd]} version
    simp only [if_pos opened]
    generalize HsrbCgosLib.cgosDriver _ version = result at kept calls answer
    obtain ⟨rets,after⟩ := result
    by_cases answered : version.Succeeds
    · obtain rfl : rets = some version.rets := answer.trans (if_pos answered)
      by_cases major : version.rets.1 >>> 24 = kCgosDrvVerMajor
      · simp only [if_pos major]
        exact .ready _ opened answered kept (by simpa using calls)
      · have finalized : after.finalizeCgos.2 = {after with fd := -1,calls := after.calls ++ [.closed fd]} := by
          simp only [HsrbCgosLib.finalizeCgos,show after.fd = fd from kept,if_pos opened]
        simp only [if_neg major,finalized]
        refine .otherVersion _ opened answered rfl ?_
        simp [show after.calls = _ from calls]
    · obtain rfl : rets = none := answer.trans (if_neg answered)
      exact .noVersion _ opened answered kept (by simpa using calls)
  · rw [if_neg opened]
    exact .notOpened _ (Int.not_le.mp opened) rfl rfl

def Few (calls : List SystemCall) : Prop := ∀ before, before <+: calls → (descriptors before).length ≤ 1

theorem few_append {calls more : List SystemCall} (few : Few calls)
    (later : ∀ before ∈ more.inits, (before.foldl track (descriptors calls)).length ≤ 1) : Few (calls ++ more) := by
  intro before isPrefix
  rcases List.prefix_or_prefix_of_prefix isPrefix (List.prefix_append calls more) with short | long
  · exact few before short
  · obtain ⟨added,rfl⟩ := long
    rw [descriptors_append]
    exact later added ((List.mem_inits _ _).mpr ((List.prefix_append_right_inj calls).mp isPrefix))

theorem finalizeCgos_holds {c : HsrbCgosLib} {fds : List Int} (holds : Holds c fds) (few : Few c.calls) :
    Holds c.finalizeCgos.2 [] ∧ Few c.finalizeCgos.2.calls := by
  obtain ⟨held,fd,short,valid⟩ := holds
  unfold HsrbCgosLib.finalizeCgos
  match fds,short with
  | [],_ =>
      rw [if_neg (by rw [fd]; decide)]
      exact ⟨⟨held,fd,by simp,by simp⟩,few⟩
  | [one],_ =>
      have set : 0 ≤ c.fd := by simpa [fd] using valid
      rw [if_pos set]
      refine ⟨⟨?_,rfl,by simp,by simp⟩,few_append few ?_⟩
      · simp [descriptors_append,held,track,fd]
      · simp [held,track,fd]

theorem initializeCgos_holds {c : HsrbCgosLib} (holds : Holds c []) (few : Few c.calls) {fd : Int} {version : IoctlResult}
    (answers : 0 ≤ fd → version.Succeeds) : ∃ fds, Holds (c.initializeCgos fd version).2 fds ∧ Few (c.initializeCgos fd version).2.calls ∧
      ((c.initializeCgos fd version).1 = false → fds = []) := by
  obtain ⟨held,unset,_,_⟩ := holds
  have way := initializeCgos_cases c fd version
  generalize c.initializeCgos fd version = result at way ⊢
  cases way with
  | notOpened after refused kept calls =>
      refine ⟨[],⟨?_,kept.trans unset,by simp,by simp⟩,?_,fun _ => rfl⟩
      · simp [calls,descriptors_append,held,track,Int.not_le.mpr refused]
      · rw [calls]
        refine few_append few ?_
        simp [held,track,Int.not_le.mpr refused]
  | noVersion after opened failed kept calls => exact absurd (answers opened) failed
  | otherVersion after opened answered unset calls =>
      refine ⟨[],⟨?_,unset,by simp,by simp⟩,?_,fun _ => rfl⟩
      · simp [calls,descriptors_append,held,track,opened]
      · rw [calls]
        refine few_append few ?_
        simp [held,track,opened]
  | ready after opened answered kept calls =>
      refine ⟨[fd],⟨?_,kept,by simp,by simpa using opened⟩,?_,nofun⟩
      · simp [calls,descriptors_append,held,track,opened]
      · rw [calls]
        refine few_append few ?_
        simp [held,track,opened]

theorem run_append (commands : List Command) (command : Command) :
    run (commands ++ [command]) = ((run commands).execute command).2 := by
  simp [run]

def AllProper (commands : List Command) : Prop := ∀ before command, before ++ [command] <+: commands → Proper (run before) command

theorem prefix_parts {commands before : List Command} {last command : Command} :
    before ++ [command] <+: commands ++ [last] ↔ before ++ [command] <+: commands ∨ before = commands ∧ command = last := by
  rw [List.prefix_concat_iff,or_comm]
  simp

theorem run_holds {commands : List Command} (proper : AllProper commands) : ∃ fds, Holds (run commands) fds ∧ Few (run commands).calls := by
  induction commands using List.reverseRecOn with
  | nil =>
      refine ⟨[],⟨rfl,rfl,by simp,by simp⟩,fun before isPrefix => ?_⟩
      rw [List.prefix_nil.mp isPrefix]
      decide
  | append_singleton commands command ih =>
      obtain ⟨fds,holds,few⟩ := ih fun before one isPrefix => proper before one (prefix_parts.mpr (.inl isPrefix))
      have last := proper commands command (List.prefix_refl _)
      rw [run_append]
      cases command with
      | finalizeCgos => exact ⟨[],finalizeCgos_holds holds few⟩
      | initializeCgos fd version =>
          obtain ⟨unset,answers⟩ := last
          obtain rfl := holds.unset unset
          obtain ⟨after,holds,few,_⟩ := initializeCgos_holds holds few answers
          exact ⟨after,holds,few⟩

theorem execute_calls (c : HsrbCgosLib) (command : Command) : c.calls <+: (c.execute command).2.calls := by
  cases command with
  | finalizeCgos =>
      change c.calls <+: c.finalizeCgos.2.calls
      unfold HsrbCgosLib.finalizeCgos
      split
      · exact List.prefix_append _ _
      · exact List.prefix_refl _
  | initializeCgos fd version =>
      change c.calls <+: (c.initializeCgos fd version).2.calls
      have way := initializeCgos_cases c fd version
      generalize c.initializeCgos fd version = result at way ⊢
      cases way with
      | notOpened after refused kept calls => exact ⟨_,calls.symm⟩
      | noVersion after opened failed kept calls => exact ⟨_,calls.symm⟩
      | otherVersion after opened answered unset calls => exact ⟨_,calls.symm⟩
      | ready after opened answered kept calls => exact ⟨_,calls.symm⟩

theorem proper_of_clean {c : HsrbCgosLib} {fds : List Int} (holds : Holds c fds) {fd : Int} {version : IoctlResult}
    (one : Few (c.initializeCgos fd version).2.calls)
    (clean : (c.initializeCgos fd version).1 = false → (c.initializeCgos fd version).2.fd = -1) :
    Proper c (.initializeCgos fd version) := by
  have way := initializeCgos_cases c fd version
  generalize c.initializeCgos fd version = result at way one clean
  -- a descriptor that is opened beside another one makes two
  have alone : 0 ≤ fd → c.calls ++ [.opened fd] <+: result.2.calls → c.fd = -1 := by
    intro opened isPrefix
    have few := one _ isPrefix
    simp only [descriptors_append,holds.held,List.foldl_cons,List.foldl_nil,track,if_pos opened,List.length_append,
      List.length_singleton] at few
    obtain rfl : fds = [] := List.length_eq_zero_iff.mp (by omega)
    exact holds.fd
  cases way with
  | notOpened after refused kept calls => exact ⟨kept.symm.trans (clean rfl),fun opened => absurd opened (Int.not_le.mpr refused)⟩
  | noVersion after opened failed kept calls =>
      have unset : fd = -1 := kept.symm.trans (clean rfl)
      omega
  | otherVersion after opened answered unset calls =>
      exact ⟨alone opened ⟨_,by rw [calls]; simp; rfl⟩,fun _ => answered⟩
  | ready after opened answered kept calls => exact ⟨alone opened ⟨_,by rw [calls]; simp; rfl⟩,fun _ => answered⟩

theorem allProper_of_noLeak {commands : List Command} (safe : NoLeak commands) : AllProper commands := by
  induction commands using List.reverseRecOn with
  | nil =>
      intro before command isPrefix
      exact absurd (List.prefix_nil.mp isPrefix) (by simp)
  | append_singleton commands last ih =>
      have earlier : NoLeak commands := by
        refine ⟨fun calls isPrefix => safe.one calls ?_,fun before fd version isPrefix => safe.clean before fd version ?_⟩
        · rw [run_append]
          exact isPrefix.trans (execute_calls _ _)
        · exact prefix_parts.mpr (.inl isPrefix)
      intro before command isPrefix
      rcases prefix_parts.mp isPrefix with prior | ⟨rfl,rfl⟩
      · exact ih earlier before command prior
      · obtain ⟨fds,holds,_⟩ := run_holds (ih earlier)
        cases command with
        | finalizeCgos => trivial
        | initializeCgos fd version =>
            have one := safe.one
            rw [run_append] at one
            exact proper_of_clean holds one fun failed => (safe.clean before fd version isPrefix failed).2

theorem noLeak_iff (commands : List Command) : NoLeak commands ↔ AllProper commands := by
  refine ⟨allProper_of_noLeak,fun proper => ⟨?_,?_⟩⟩
  · obtain ⟨_,_,few⟩ := run_holds proper
    exact few
  · intro before fd version isPrefix failed
    have earlier : AllProper before := fun first command one =>
      proper first command (one.trans ((List.prefix_append before _).trans isPrefix))
    obtain ⟨fds,holds,few⟩ := run_holds earlier
    obtain ⟨unset,answers⟩ := proper before _ isPrefix
    obtain rfl := holds.unset unset
    obtain ⟨after,holds,_,none⟩ := initializeCgos_holds holds few answers
    obtain rfl := none failed
    exact ⟨holds.held,holds.fd⟩

theorem unanswered_version_leaks : ¬ ∀ commands, NoLeak commands := by
  intro every
  have proper := (noLeak_iff _).mp (every [.initializeCgos 3 ⟨-1,0,0,(0,0)⟩]) [] _ (List.prefix_refl _)
  exact absurd (proper.2 (by decide)).1 (by decide)

end HsrbDrivers.Cgos
