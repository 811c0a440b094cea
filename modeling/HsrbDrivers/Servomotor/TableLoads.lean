import HsrbDrivers.Servomotor.ControlTable

namespace HsrbDrivers.Servomotor
open CText

namespace ControlTable

def names (t : ControlTable) : List (List UInt8) := t.descriptors.map Prod.fst

def SameAnswers (t u : ControlTable) : Prop :=
  t.md5sum = u.md5sum ∧ ∀ entry, t.referItemDescriptor entry = u.referItemDescriptor entry

-- A call that succeeds leaves what it leaves of a fresh table, one that fails nothing.
def AtomicLoad (csv : Csv) (t : ControlTable) (content : Option (List UInt8)) : Prop :=
  ∀ error report u, load csv t content = some (error,report,u) →
    if error = .success then
      ∃ report' v, load csv fresh content = some (.success,report',v) ∧ SameAnswers u v
    else SameAnswers u t

-- Something holds of every call of `Load` in a sequence of them on one table. An exception
-- ends the sequence; another may begin with the table that it leaves.
def AtEachLoad (csv : Csv) (holds : ControlTable → Option (List UInt8) → Prop) :
    ControlTable → List (Option (List UInt8)) → Prop
  | _,[] => True
  | t,content :: contents => holds t content ∧
      ∀ error report u, load csv t content = some (error,report,u) → AtEachLoad csv holds u contents

end ControlTable

def entryName (csv : Csv) (line : List UInt8) : List UInt8 := ((csv.tokenize line).getD []).getD 2 []

def verdict (csv : Csv) (names : List (List UInt8)) (line : List UInt8) : Option LoadError :=
  (csv.tokenize line).map fun tokens =>
    if tokens.length ≠ 12 then .columnSizeError
    else if names.contains (tokens.getD 2 []) then .alreadyRecorded
    else if (parseType (tokens.getD 1 [])).isNone then .badType
    else .success

-- Each row is in order behind the ones before it.
def AllTaken (csv : Csv) : List (List UInt8) → List (List UInt8) → Prop
  | _,[] => True
  | names,line :: lines => verdict csv names line = some .success ∧ AllTaken csv (names ++ [entryName csv line]) lines

-- A file whose rows are all in order meets an empty table. One with a row that is refused
-- has it in the first place and the hash of the file loaded before.
def KeptApart (csv : Csv) (t : ControlTable) : Option (List UInt8) → Prop
  | none => True
  | some message => (AllTaken csv t.names (getlines [] message).tail → t.descriptors = []) ∧
      ∀ front line after error, (getlines [] message).tail = front ++ line :: after → AllTaken csv t.names front →
        verdict csv (t.names ++ front.map (entryName csv)) line = some error → error ≠ .success →
        front = [] ∧ csv.md5 message = t.md5sum

namespace ControlTable

theorem refer_none_iff (t : ControlTable) (entry : List UInt8) : t.referItemDescriptor entry = none ↔ entry ∉ t.names := by
  rw [referItemDescriptor,List.lookup_eq_none_iff,names,List.mem_map]
  constructor
  · rintro absent ⟨row,member,rfl⟩
    exact absurd rfl (bne_iff_ne.mp (absent row member))
  · intro absent row member
    exact bne_iff_ne.mpr fun same => absent ⟨row,member,same.symm⟩

theorem processLine_verdict {csv : Csv} {line : List UInt8} {t : ControlTable} (lastAddress : Nat) :
    (processLine csv line lastAddress t).map (fun result => result.1) = verdict csv t.names line := by
  unfold processLine verdict
  cases csv.tokenize line with
  | none => rfl
  | some tokens =>
      dsimp only [bind,Option.bind,pure,Option.map]
      generalize tokens.getD 1 [] = typeStr
      generalize tokens.getD 2 [] = name
      by_cases size : tokens.length = 12
      · by_cases known : name ∈ t.names
        · have found : (t.referItemDescriptor name).isSome = true := by
            rw [Option.isSome_iff_ne_none]
            exact fun absent => (refer_none_iff t _).mp absent known
          simp [size,known,found]
        · have absent := (refer_none_iff t _).mpr known
          cases parseType typeStr with
          | none => simp [size,known,absent]
          | some found => simp [size,known,absent]
      · simp [size]

theorem processLine_refused {csv : Csv} {line : List UInt8} {lastAddress next : Nat} {t u : ControlTable} {error : LoadError}
    (refused : processLine csv line lastAddress t = some (error,next,u)) (failed : error ≠ .success) : u = t := by
  unfold processLine at refused
  obtain ⟨tokens,_,refused⟩ := Option.bind_eq_some_iff.mp refused
  dsimp only at refused
  repeat' split at refused
  all_goals cases refused
  all_goals first | rfl | exact absurd rfl failed

-- A row in order is added at the end of any table that does not know its name, always the
-- same one.
theorem processLine_taken {csv : Csv} {line : List UInt8} {names : List (List UInt8)}
    (taken : verdict csv names line = some .success) (lastAddress : Nat) :
    entryName csv line ∉ names ∧ ∃ descriptor next, ∀ t : ControlTable, entryName csv line ∉ t.names →
      processLine csv line lastAddress t =
        some (.success,next,{t with descriptors := t.descriptors ++ [(entryName csv line,descriptor)]}) := by
  obtain ⟨tokens,tokenized,inOrder⟩ := Option.map_eq_some_iff.mp taken
  have name : entryName csv line = tokens.getD 2 [] := by rw [entryName,tokenized,Option.getD_some]
  split at inOrder
  · cases inOrder
  rename_i size
  split at inOrder
  · cases inOrder
  rename_i unknown
  split at inOrder
  · cases inOrder
  rename_i typed
  obtain ⟨⟨type,numBytes⟩,parsed⟩ := Option.ne_none_iff_exists'.mp (mt Option.isNone_iff_eq_none.mpr typed)
  rw [name]
  refine ⟨mt List.contains_iff_mem.mpr unknown,.construct type lastAddress (tokens.getD 6 []) ((csv.lexicalCast (tokens.getD 5 [])).getD 1.0),
    (lastAddress + numBytes) % 2^16,fun t absent => ?_⟩
  have fresh := (refer_none_iff t _).mpr absent
  unfold processLine
  rw [tokenized]
  dsimp only [bind,Option.bind,pure]
  rw [if_neg size,fresh,parsed]
  rfl

theorem loadLines_front {csv : Csv} {names : List (List UInt8)} {front : List (List UInt8)} (taken : AllTaken csv names front)
    (lastAddress numLine : Nat) : ∃ rows next count, rows.map Prod.fst = front.map (entryName csv) ∧
      ∀ (t : ControlTable) others, t.names ⊆ names → loadLines csv (front ++ others) lastAddress numLine t =
        loadLines csv others next count {t with descriptors := t.descriptors ++ rows} := by
  induction front generalizing names lastAddress numLine with
  | nil => exact ⟨[],lastAddress,numLine,rfl,fun t others _ => by simp⟩
  | cons line front ih =>
      obtain ⟨first,behind⟩ := taken
      obtain ⟨unknown,descriptor,middle,added⟩ := processLine_taken first lastAddress
      obtain ⟨rows,next,count,same,loaded⟩ := ih behind middle ((numLine + 1) % 2^32)
      refine ⟨(entryName csv line,descriptor) :: rows,next,count,by rw [List.map_cons,List.map_cons,same],fun t others known => ?_⟩
      rw [List.cons_append,loadLines,added t fun member => unknown (known member)]
      refine (loaded _ others ?_).trans ?_
      · intro name member
        rw [ControlTable.names,List.map_append] at member
        rcases List.mem_append.mp member with old | new
        · exact List.mem_append_left _ (known old)
        · exact List.mem_append_right _ new
      · rw [List.append_assoc]
        rfl

theorem allTaken_or (csv : Csv) (names lines : List (List UInt8)) : AllTaken csv names lines ∨
    ∃ front line after, lines = front ++ line :: after ∧ AllTaken csv names front ∧
      verdict csv (names ++ front.map (entryName csv)) line ≠ some .success := by
  induction lines generalizing names with
  | nil => exact .inl trivial
  | cons line lines ih =>
      by_cases first : verdict csv names line = some .success
      · rcases ih (names ++ [entryName csv line]) with taken | ⟨front,other,after,split,taken,refused⟩
        · exact .inl ⟨first,taken⟩
        · refine .inr ⟨line :: front,other,after,by rw [split]; rfl,⟨first,taken⟩,?_⟩
          rwa [List.append_assoc] at refused
      · exact .inr ⟨[],line,lines,rfl,trivial,by rwa [List.map_nil,List.append_nil]⟩

theorem allTaken_unknown {csv : Csv} {names lines : List (List UInt8)} (taken : AllTaken csv names lines) :
    ∀ line ∈ lines, entryName csv line ∉ names := by
  induction lines generalizing names with
  | nil =>
      intro line member
      cases member
  | cons first lines ih =>
      intro line member
      rcases List.mem_cons.mp member with rfl | later
      · exact (processLine_taken taken.1 0).1
      · exact fun known => ih taken.2 line later (List.mem_append_left _ known)

theorem load_taken {csv : Csv} {t : ControlTable} {message : List UInt8}
    (taken : AllTaken csv t.names (getlines [] message).tail) :
    ∃ rows, rows.map Prod.fst = (getlines [] message).tail.map (entryName csv) ∧
      load csv t (some message) = some (.success,none,⟨csv.md5 message,t.descriptors ++ rows⟩) ∧
      load csv fresh (some message) = some (.success,none,⟨csv.md5 message,rows⟩) := by
  obtain ⟨rows,next,count,same,loaded⟩ := loadLines_front taken 0 0
  have whole (u : ControlTable) (known : u.names ⊆ t.names) := loaded {u with md5sum := csv.md5 message} [] known
  simp only [List.append_nil,loadLines] at whole
  exact ⟨rows,same,whole t (List.Subset.refl _),whole fresh (List.nil_subset _)⟩

theorem load_stopped {csv : Csv} {t : ControlTable} {message line : List UInt8} {front after : List (List UInt8)}
    (split : (getlines [] message).tail = front ++ line :: after) (taken : AllTaken csv t.names front)
    (stops : verdict csv (t.names ++ front.map (entryName csv)) line ≠ some .success) :
    ∃ rows, rows.map Prod.fst = front.map (entryName csv) ∧
      ((load csv t (some message) = none ∧ verdict csv (t.names ++ front.map (entryName csv)) line = none) ∨
      ∃ error report, error ≠ .success ∧ verdict csv (t.names ++ front.map (entryName csv)) line = some error ∧
        load csv t (some message) = some (error,report,⟨csv.md5 message,t.descriptors ++ rows⟩)) := by
  obtain ⟨rows,next,count,same,loaded⟩ := loadLines_front taken 0 0
  have reached := loaded {t with md5sum := csv.md5 message} (line :: after) (List.Subset.refl _)
  have grown : names ⟨csv.md5 message,t.descriptors ++ rows⟩ = t.names ++ front.map (entryName csv) := by
    rw [names,List.map_append,same]
    rfl
  have said := @processLine_verdict csv line ⟨csv.md5 message,t.descriptors ++ rows⟩ next
  rw [grown] at said
  refine ⟨rows,same,?_⟩
  cases one : processLine csv line next ⟨csv.md5 message,t.descriptors ++ rows⟩ with
  | none =>
      rw [one] at said
      refine .inl ⟨?_,said.symm⟩
      rw [load,split,reached,loadLines]
      dsimp only
      rw [one]
      rfl
  | some result =>
      obtain ⟨error,address,u⟩ := result
      rw [one] at said
      have failed : error ≠ .success := by
        rintro rfl
        exact stops said.symm
      cases processLine_refused one failed
      refine .inr ⟨error,some (errorString error,count),failed,said.symm,?_⟩
      rw [load,split,reached,loadLines]
      refine Option.bind_eq_some_iff.mpr ⟨_,one,?_⟩
      exact if_pos failed

theorem SameAnswers.mem_names {t u : ControlTable} (same : SameAnswers t u) (entry : List UInt8) :
    entry ∈ t.names ↔ entry ∈ u.names := by
  rw [← not_iff_not,← refer_none_iff,← refer_none_iff,same.2 entry]

theorem sameAnswers_behind {t : ControlTable} {digest : List UInt8} {rows : List (List UInt8 × ControlTableItemDescriptor)}
    (unknown : ∀ name ∈ rows.map Prod.fst, name ∉ t.names) :
    SameAnswers ⟨digest,t.descriptors ++ rows⟩ ⟨digest,rows⟩ ↔ t.descriptors = [] := by
  constructor
  · intro same
    have nameless : t.names = [] := by
      refine List.eq_nil_iff_forall_not_mem.mpr fun name member => ?_
      have kept : name ∈ names ⟨digest,t.descriptors ++ rows⟩ := by
        rw [names,List.map_append]
        exact List.mem_append_left _ member
      exact unknown name ((same.mem_names name).mp kept) member
    exact List.map_eq_nil_iff.mp nameless
  · intro empty
    rw [empty]
    exact ⟨rfl,fun _ => rfl⟩

theorem sameAnswers_before {t : ControlTable} {digest : List UInt8} {rows : List (List UInt8 × ControlTableItemDescriptor)}
    (unknown : ∀ name ∈ rows.map Prod.fst, name ∉ t.names) :
    SameAnswers ⟨digest,t.descriptors ++ rows⟩ t ↔ rows = [] ∧ digest = t.md5sum := by
  constructor
  · intro same
    have nameless : rows.map Prod.fst = [] := by
      refine List.eq_nil_iff_forall_not_mem.mpr fun name member => ?_
      have added : name ∈ names ⟨digest,t.descriptors ++ rows⟩ := by
        rw [names,List.map_append]
        exact List.mem_append_right _ member
      exact unknown name member ((same.mem_names name).mp added)
    exact ⟨List.map_eq_nil_iff.mp nameless,same.1⟩
  · rintro ⟨rfl,rfl⟩
    rw [List.append_nil]
    exact ⟨rfl,fun _ => rfl⟩

theorem entries_unknown {csv : Csv} {t : ControlTable} {lines : List (List UInt8)} (taken : AllTaken csv t.names lines)
    {rows : List (List UInt8 × ControlTableItemDescriptor)} (same : rows.map Prod.fst = lines.map (entryName csv)) :
    ∀ name ∈ rows.map Prod.fst, name ∉ t.names := by
  intro name member
  rw [same] at member
  obtain ⟨line,there,rfl⟩ := List.mem_map.mp member
  exact allTaken_unknown taken line there

theorem atomicLoad_iff (csv : Csv) (t : ControlTable) (content : Option (List UInt8)) :
    AtomicLoad csv t content ↔ KeptApart csv t content := by
  cases content with
  | none =>
      refine iff_of_true (fun error report u loaded => ?_) trivial
      cases loaded
      exact ⟨rfl,fun _ => rfl⟩
  | some message =>
      constructor
      · intro atomic
        refine ⟨fun taken => ?_,fun front line after error split taken refused failed => ?_⟩
        · obtain ⟨rows,same,loaded,alone⟩ := load_taken taken
          obtain ⟨report,v,again,answers⟩ := atomic _ _ _ loaded
          cases alone.symm.trans again
          exact (sameAnswers_behind (entries_unknown taken same)).mp answers
        · obtain ⟨rows,same,⟨_,thrown⟩ | ⟨error',report,failed',refused',loaded⟩⟩ :=
            load_stopped split taken (by rw [refused]; simpa using failed)
          · cases refused.symm.trans thrown
          · have answers := atomic _ _ _ loaded
            rw [if_neg failed'] at answers
            obtain ⟨rfl,digest⟩ := (sameAnswers_before (entries_unknown taken same)).mp answers
            exact ⟨List.map_eq_nil_iff.mp same.symm,digest⟩
      · rintro ⟨whole,stopped⟩ error report u loaded
        rcases allTaken_or csv t.names (getlines [] message).tail with taken | ⟨front,line,after,split,taken,stops⟩
        · obtain ⟨rows,same,loads,alone⟩ := load_taken taken
          cases loads.symm.trans loaded
          rw [if_pos rfl]
          exact ⟨none,_,alone,(sameAnswers_behind (entries_unknown taken same)).mpr (whole taken)⟩
        · obtain ⟨rows,same,⟨nothing,_⟩ | ⟨error',report',failed,refused,loads⟩⟩ := load_stopped split taken stops
          · cases nothing.symm.trans loaded
          · cases loads.symm.trans loaded
            rw [if_neg failed]
            obtain ⟨rfl,digest⟩ := stopped front line after error split taken refused failed
            exact (sameAnswers_before (entries_unknown taken same)).mpr ⟨List.map_eq_nil_iff.mp same,digest⟩

theorem loads_atomic_iff (csv : Csv) (t : ControlTable) (contents : List (Option (List UInt8))) :
    AtEachLoad csv (AtomicLoad csv) t contents ↔ AtEachLoad csv (KeptApart csv) t contents := by
  induction contents generalizing t with
  | nil => exact Iff.rfl
  | cons content contents ih =>
      refine and_congr (atomicLoad_iff csv t content) ?_
      constructor
      · intro later error report u loaded
        exact (ih u).mp (later error report u loaded)
      · intro later error report u loaded
        exact (ih u).mpr (later error report u loaded)

def modeFile : List UInt8 := ascii "type\n,uint8_t,mode,,,,order,,,,,\n"

def modeFileMd5 : List UInt8 := [128,136,197,91,53,236,15,35,188,228,148,70,238,172,13,108]

def brokenFile : List UInt8 := ascii "type\n,uint8_t,mode,,,,order,,,,,\n,word,gain,,,,param,,,,,\n"

def brokenFileMd5 : List UInt8 := [154,104,120,42,49,178,249,39,229,244,99,184,126,203,97,182]

def filesCsv : Csv := {plainCsv [] with
  md5 := fun content => if content = smallFile then smallFileMd5 else if content = modeFile then modeFileMd5 else brokenFileMd5}

theorem loads_not_atomic : ¬ AtEachLoad filesCsv (AtomicLoad filesCsv) fresh [some smallFile,some modeFile] ∧
    ¬ AtEachLoad filesCsv (AtomicLoad filesCsv) fresh [some brokenFile] := by
  constructor
  · rintro ⟨_,later⟩
    have taken : AllTaken filesCsv fresh.names (getlines [] smallFile).tail :=
      ⟨by decide +kernel,by decide +kernel,trivial⟩
    obtain ⟨rows,same,loaded,_⟩ := load_taken taken
    have named : rows.map Prod.fst = [ascii "speed",ascii "gain"] := same.trans (by decide +kernel)
    have kept := (atomicLoad_iff filesCsv _ _).mp (later _ _ _ loaded).1
    have known : names ⟨filesCsv.md5 smallFile,fresh.descriptors ++ rows⟩ = [ascii "speed",ascii "gain"] := named
    have empty := kept.1 (by rw [known]; exact ⟨by decide +kernel,trivial⟩)
    have none : rows = [] := empty
    rw [none] at named
    cases named
  · rintro ⟨atomic,_⟩
    have kept := (atomicLoad_iff filesCsv _ _).mp atomic
    have front := kept.2 [ascii ",uint8_t,mode,,,,order,,,,,"] (ascii ",word,gain,,,,param,,,,,") [] .badType (by decide +kernel)
      ⟨by decide +kernel,trivial⟩ (by decide +kernel) (by decide)
    cases front.1

end ControlTable
end HsrbDrivers.Servomotor
