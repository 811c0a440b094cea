import HsrbDrivers.DigitalIo.SerialConnection

namespace HsrbDrivers.DigitalIo

structure Host (Interval : Type) where
  connection : SerialConnection
  locked : Bool
  written : List UInt8
  timers : List Interval

namespace Host
variable {Interval : Type}

-- `with self._lock:` around a block that gives `false` when it raises. The lock is given
-- back on either way out.
def withLock (block : Host Interval → Bool × Host Interval) (h : Host Interval) : Bool × Host Interval :=
  let (completed,after) := block {h with locked := true}
  (completed,{after with locked := false})

def write (h : Host Interval) : Bool × Host Interval :=
  match h.connection.frame with
  | none => (false,h)
  | some sendData => (true,{h with written := h.written ++ sendData})

def read (h : Host Interval) (data : List UInt8) : Bool × Host Interval :=
  match h.connection.read data with
  | (.raised,connection) => (false,{h with connection := connection})
  | (_,connection) => (true,{h with connection := connection})

-- An exception out of the block is one out of the function, so that no timer is started.
def runImpl (h : Host Interval) (interval : Interval) (data : List UInt8) : Bool × Host Interval :=
  match h.withLock fun h => match h.write with
    | (true,h) => h.read data
    | (false,h) => (false,h) with
  | (true,h) => (true,{h with timers := h.timers ++ [interval]})
  | (false,h) => (false,h)

def Updates (data : List UInt8) (s : Sensors) : Prop :=
  ∃ values, decode data = some values ∧ 6 ≤ values.length ∧
    (values.take 6).map (fun value => (intOf value).map (· != 0)) = s.values.map some

structure Polled (h : Host Interval) (interval : Interval) (data : List UInt8) (after : Host Interval) : Prop where
  sensors : Updates data after.connection.sensors ∨ after.connection.sensors = h.connection.sensors
  released : after.locked = false
  scheduled : after.timers = h.timers ++ [interval]

-- Text that is too short to be a reply, or that begins with six digits.
def Readable (data : List UInt8) : Prop :=
  ∃ values, decode data = some values ∧ (values.length < 6 ∨ ∀ value ∈ values.take 6, (intOf value).isSome)

theorem assign_completes (sets : List (Sensors → Bool → Sensors)) (values : List Char) (s : Sensors) :
    (assign sets values s).1 = true ↔ ∀ value ∈ values.take sets.length, (intOf value).isSome := by
  induction sets generalizing values s with
  | nil => simp [assign]
  | cons set sets ih =>
      cases values with
      | nil => simp [assign]
      | cons value values =>
          cases parsed : intOf value with
          | none => simp [assign,parsed]
          | some n => simpa [assign,parsed] using ih values (set s (n != 0))

theorem assign_six (values : List Char) (enough : 6 ≤ values.length) (digits : ∀ value ∈ values.take 6, (intOf value).isSome)
    (s : Sensors) : (values.take 6).map (fun value => (intOf value).map (· != 0)) = (assign setters values s).2.values.map some := by
  match values,enough,digits with
  | a :: b :: c :: d :: e :: f :: rest,_,digits =>
      simp only [List.take_succ_cons,List.take_zero,List.forall_mem_cons,Option.isSome_iff_exists] at digits
      obtain ⟨⟨_,isA⟩,⟨_,isB⟩,⟨_,isC⟩,⟨_,isD⟩,⟨_,isE⟩,⟨_,isF⟩,_⟩ := digits
      simp [setters,assign,Sensors.values,isA,isB,isC,isD,isE,isF]

theorem read_raises_iff (c : SerialConnection) (data : List UInt8) : (c.read data).1 = .raised ↔ ¬ Readable data := by
  unfold SerialConnection.read Readable
  cases text : decode data with
  | none => simp
  | some values =>
      simp only [Option.some.injEq,exists_eq_left']
      by_cases short : values.length < 6
      · simp [short]
      · have completes := assign_completes setters values c.sensors
        cases assigned : assign setters values c.sensors with
        | mk completed sensors =>
            rw [assigned] at completes
            have six : setters.length = 6 := rfl
            rw [six] at completes
            simp only [if_neg short]
            cases completed with
            | false => simpa [short] using completes
            | true => simpa [short,Option.isSome_iff_ne_none] using completes

theorem read_whole (c : SerialConnection) {data : List UInt8} (readable : Readable data) :
    Updates data (c.read data).2.sensors ∨ (c.read data).2.sensors = c.sensors := by
  obtain ⟨values,text,short | digits⟩ := readable
  · exact .inr (by simp [SerialConnection.read,text,short])
  · by_cases short : values.length < 6
    · exact .inr (by simp [SerialConnection.read,text,short])
    · refine .inl ⟨values,text,Nat.le_of_not_lt short,?_⟩
      rw [assign_six values (Nat.le_of_not_lt short) digits c.sensors]
      have completed := (assign_completes setters values c.sensors).mpr digits
      cases assigned : assign setters values c.sensors with
      | mk one sensors =>
          rw [assigned] at completed
          cases completed
          simp [SerialConnection.read,text,short,assigned]

theorem runImpl_eq {h : Host Interval} (written : h.connection.frame.isSome) (interval : Interval) (data : List UInt8) :
    (h.runImpl interval data).2.connection = (h.connection.read data).2 ∧ (h.runImpl interval data).2.locked = false ∧
      (h.runImpl interval data).2.timers =
        if (h.connection.read data).1 = .raised then h.timers else h.timers ++ [interval] := by
  obtain ⟨frame,isFrame⟩ := Option.isSome_iff_exists.mp written
  cases result : h.connection.read data with
  | mk one connection => cases one <;> simp [runImpl,withLock,write,isFrame,read,result]

theorem runImpl_polled_iff {h : Host Interval} (written : h.connection.frame.isSome) (interval : Interval) (data : List UInt8) :
    Polled h interval data (h.runImpl interval data).2 ↔ Readable data := by
  obtain ⟨connection,released,timers⟩ := runImpl_eq written interval data
  constructor
  · intro polled
    by_contra unreadable
    have scheduled := polled.scheduled
    rw [timers,if_pos ((read_raises_iff h.connection data).mpr unreadable)] at scheduled
    exact List.cons_ne_nil _ _ (List.self_eq_append_right.mp scheduled)
  · intro readable
    refine ⟨?_,released,?_⟩
    · rw [connection]
      exact read_whole h.connection readable
    · rw [timers,if_neg fun raised => (read_raises_iff h.connection data).mp raised readable]

def start : Host Interval := ⟨.initial,false,[],[]⟩

theorem zeros_polled :
    Polled start 100 [48,48,48,48,48,48] ((start : Host Nat).runImpl 100 [48,48,48,48,48,48]).2 := by
  refine (runImpl_polled_iff (by decide) 100 _).mpr ⟨_,decode_digits (List.replicate 6 false),.inr fun value member => ?_⟩
  obtain ⟨bit,_,rfl⟩ := List.mem_map.mp (List.mem_of_mem_take member)
  rw [intOf_digit]
  rfl

theorem torn_reply_stops : ¬ ∀ (h : Host Nat) (interval : Nat) (data : List UInt8), h.connection.frame.isSome →
    Polled h interval data (h.runImpl interval data).2 := by
  intro every
  have polled := every start 100 [49,120,48,48,48,48] (by decide)
  exact absurd polled.scheduled (by decide)

end Host
end HsrbDrivers.DigitalIo
