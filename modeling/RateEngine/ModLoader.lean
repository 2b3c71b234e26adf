import Mathlib.Data.Int.Basic
import Mathlib.Data.List.Induction
import RateEngine.Lib.EventLog

/-!
# Loading the modules

`mod_load_modules` opens the modules of `<LoadModules>` one after the other.  For each it looks up
the descriptor, checks the dependencies that the descriptor declares, runs its init function and
appends the module to `mod_lst`.  The result of the check is not used.  This file models the loader
with a log of what it does and states exactly when every init function runs after its dependencies
were loaded.
-/

namespace RateEngine

/-! ## The loader -/

/-- `mod_t` as a module exports it: an init function that returns a code, a destroy function and the
names in the array of its dependencies, each of them possibly `NULL`. -/
structure ModDescriptor where
  init : Option ℤ := none
  destroy : Option ℕ := none
  depends : Option (List String) := none
deriving DecidableEq

/-- `mod_t` in the list of modules. -/
structure Mod where
  modName : String
  handle : ℕ
  destroy : Option ℕ := none

/-- `xml_param_t`. -/
structure XmlParam where
  name : String
  value : String

/-- What the dynamic linker and the allocator do while a parameter is worked on. -/
structure ModHost where
  dlopen : String → Option ℕ
  alloc : Bool
  dlsym : ℕ → String → Option ModDescriptor

/-- What the loader does: check dependencies, run an init function, append to `mod_lst`. -/
inductive ModEvent where
  | check (modName : String) (ret : ℤ)
  | init (modName : String) (rem : ModDescriptor)
  | load (modName : String)
deriving DecidableEq

/-- `mod_lst` and what has happened. -/
structure ModLoader where
  modLst : List Mod := []
  log : List ModEvent := []

/-- `RE_SUCCESS`. -/
def reSuccess : ℤ := 0

/-- `RE_ERROR`. -/
def reError : ℤ := 1

/-- `RE_ERROR_N`. -/
def reErrorN : ℤ := -1

/-- `mod_find_module`. -/
def modFindModule (modLst : List Mod) (modName : String) : Option Mod :=
  modLst.find? fun chk => chk.modName = modName

/-- `mod_dep_module`; the array ends with an empty name. -/
def modDepModule (modLst : List Mod) : List String → ℤ
  | [] => reSuccess
  | depModName :: dep =>
      if depModName = "" then reSuccess
      else
        match modFindModule modLst depModName with
        | none => reError
        | some _ => modDepModule modLst dep

/-- `mod_struct_name`: the name up to its first dot. -/
def modStructName (modName : String) : String :=
  String.ofList (modName.toList.takeWhile (· ≠ '.')) ++ "_mod_t"

/-- Check the dependencies of a module. -/
def ModLoader.check (s : ModLoader) (modName : String) (rem : ModDescriptor) : ModLoader :=
  match rem.depends with
  | none => s
  | some dep => { s with log := s.log ++ [.check modName (modDepModule s.modLst dep)] }

/-- `mod_init_module`. -/
def ModLoader.init (s : ModLoader) (modName : String) (rem : ModDescriptor) : ModLoader :=
  match rem.init with
  | none => s
  | some _ => { s with log := s.log ++ [.init modName rem] }

/-- Append a module to `mod_lst`. -/
def ModLoader.append (s : ModLoader) (ptr : Mod) : ModLoader :=
  { modLst := s.modLst ++ [ptr], log := s.log ++ [.load ptr.modName] }

/-- The body of the loop of `mod_load_modules` for a module that was opened: the result of the check
is not used. -/
def modLoadOpened (s : ModLoader) (ptr : Mod) : Option ModDescriptor → ModLoader
  | none => s.append ptr
  | some rem =>
      ((s.check ptr.modName rem).init ptr.modName rem).append { ptr with destroy := rem.destroy }

/-- The body of the loop of `mod_load_modules`; nothing when there is no memory for a `mod_t`. -/
def modLoadParam (dirname : String) (s : ModLoader) (param : XmlParam) (host : ModHost) :
    Option ModLoader :=
  if param.name ≠ "module" then some s
  else
    match host.dlopen (dirname ++ param.value) with
    | none => some s
    | some handle =>
        if host.alloc then
          some (modLoadOpened s { modName := param.value, handle }
            (host.dlsym handle (modStructName param.value)))
        else none

/-- The loop of `mod_load_modules`. -/
def modLoadLoop (dirname : String) (s : ModLoader) : List (XmlParam × ModHost) → ℤ × ModLoader
  | [] => (reSuccess, s)
  | (param, host) :: params =>
      match modLoadParam dirname s param host with
      | none => (reErrorN, s)
      | some s => modLoadLoop dirname s params

/-- The configuration: no `mcfg`, a file without a document or a root, or the parameters of
`<LoadModules>`. -/
inductive ModConfig where
  | missing
  | unread
  | params (entries : List (XmlParam × ModHost))

/-- `mod_load_modules`. -/
def modLoadModules (dirname : String) : ModConfig → ℤ × ModLoader
  | .missing => (reErrorN, {})
  | .unread => (reSuccess, {})
  | .params entries => modLoadLoop dirname {} entries

/-! ## Dependencies -/

/-- The names of the modules that a module depends on. -/
def ModDescriptor.deps (rem : ModDescriptor) : List String :=
  (rem.depends.getD []).takeWhile (· ≠ "")

/-- An init function runs when the dependencies of its module are loaded. -/
def ModEvent.DepsLoaded (before : List ModEvent) : ModEvent → Prop
  | init _ rem => ∀ dep ∈ rem.deps, .load dep ∈ before
  | check _ _ | load _ => True

/-- Every init function runs after the dependencies of its module were loaded. -/
def DepsFirst (log : List ModEvent) : Prop :=
  EventLog.Obeys (fun before event => event.DepsLoaded before) log

variable (dirname : String)

/-- The parameter names a module file that can be opened. -/
def Opened (entry : XmlParam × ModHost) : Prop :=
  entry.1.name = "module" ∧ (entry.2.dlopen (dirname ++ entry.1.value)).isSome

/-- The descriptor that the opened file exports. -/
def exported (entry : XmlParam × ModHost) : Option ModDescriptor :=
  (entry.2.dlopen (dirname ++ entry.1.value)).bind fun handle =>
    entry.2.dlsym handle (modStructName entry.1.value)

/-- There is memory for a module that is opened. -/
def Held (entry : XmlParam × ModHost) : Prop := Opened dirname entry → entry.2.alloc

/-- The dependencies of a module with an init function are opened from the parameters before it. -/
def DepsBefore (front : List (XmlParam × ModHost)) (entry : XmlParam × ModHost) : Prop :=
  Opened dirname entry → ∀ rem, exported dirname entry = some rem → rem.init.isSome →
    ∀ dep ∈ rem.deps, ∃ earlier ∈ front, Opened dirname earlier ∧ earlier.1.value = dep

/-- As long as there is memory, every module with an init function stands behind
its dependencies. -/
def DepsMet (params : List (XmlParam × ModHost)) : Prop :=
  EventLog.Obeys (fun front entry =>
    (∀ e ∈ front, Held dirname e) → Held dirname entry → DepsBefore dirname front entry) params

/-- The parameters of the configuration. -/
def ModConfig.list (config : ModConfig) : List (XmlParam × ModHost) :=
  match config with
  | .missing | .unread => []
  | .params entries => entries

/-! ## The check of the dependencies -/

/-- The check finds a missing dependency. -/
theorem modDepModule_eq_reSuccess_iff (modLst : List Mod) (dep : List String) :
    modDepModule modLst dep = reSuccess ↔
      ∀ name ∈ dep.takeWhile (· ≠ ""), name ∈ modLst.map Mod.modName := by
  induction dep with
  | nil => simp [modDepModule]
  | cons name dep induction =>
      by_cases ends : name = ""
      · simp [modDepModule, ends]
      · have found : (modFindModule modLst name).isSome ↔ name ∈ modLst.map Mod.modName := by
          simp [modFindModule, List.find?_isSome]
        rw [modDepModule, if_neg ends, List.takeWhile_cons_of_pos (by simpa using ends),
          List.forall_mem_cons, ← induction, ← found]
        cases modFindModule modLst name with
        | none => simp [reError, reSuccess]
        | some mod => simp

/-! ## One parameter -/

section Step

variable {dirname} {s : ModLoader} {modName : String} {rem : ModDescriptor}

@[simp]
theorem load_mem_check {name : String} :
    .load name ∈ (s.check modName rem).log ↔ .load name ∈ s.log := by
  unfold ModLoader.check
  split <;> simp

@[simp]
theorem load_mem_init {name : String} :
    .load name ∈ (s.init modName rem).log ↔ .load name ∈ s.log := by
  unfold ModLoader.init
  split <;> simp

@[simp]
theorem load_mem_append {ptr : Mod} {name : String} :
    .load name ∈ (s.append ptr).log ↔ .load name ∈ s.log ∨ ptr.modName = name := by
  simp [ModLoader.append, eq_comm]

@[simp]
theorem depsFirst_check : DepsFirst (s.check modName rem).log ↔ DepsFirst s.log := by
  unfold ModLoader.check
  split
  · exact Iff.rfl
  · exact EventLog.obeys_concat_of_free fun _ => trivial

theorem depsFirst_init : DepsFirst (s.init modName rem).log ↔
    DepsFirst s.log ∧ (rem.init.isSome → ∀ dep ∈ rem.deps, .load dep ∈ s.log) := by
  unfold ModLoader.init
  split
  · rename_i absent
    simp [absent]
  · rename_i present
    simp only [present, Option.isSome_some, forall_const]
    exact EventLog.obeys_concat_iff

@[simp]
theorem depsFirst_append {ptr : Mod} : DepsFirst (s.append ptr).log ↔ DepsFirst s.log :=
  EventLog.obeys_concat_of_free fun _ => trivial

variable {ptr : Mod} {descriptor : Option ModDescriptor}

@[simp]
theorem load_mem_modLoadOpened {name : String} :
    .load name ∈ (modLoadOpened s ptr descriptor).log ↔ .load name ∈ s.log ∨
      ptr.modName = name := by
  cases descriptor <;> simp [modLoadOpened]

/-- Working on an opened module keeps the order exactly when its dependencies are loaded, should it
have an init function. -/
theorem depsFirst_modLoadOpened : DepsFirst (modLoadOpened s ptr descriptor).log ↔
    DepsFirst s.log ∧ ∀ rem, descriptor = some rem → rem.init.isSome →
      ∀ dep ∈ rem.deps, .load dep ∈ s.log := by
  cases descriptor with
  | none => simp [modLoadOpened]
  | some rem => simp [modLoadOpened, depsFirst_init]

/-- What the loader does with a parameter. -/
theorem modLoadParam_cases (dirname : String) (s : ModLoader) (entry : XmlParam × ModHost) :
    ¬ Opened dirname entry ∧ modLoadParam dirname s entry.1 entry.2 = some s ∨
      Opened dirname entry ∧ entry.2.alloc = false ∧
        modLoadParam dirname s entry.1 entry.2 = none ∨
      Opened dirname entry ∧ entry.2.alloc = true ∧ ∃ handle,
        modLoadParam dirname s entry.1 entry.2 =
          some (modLoadOpened s { modName := entry.1.value, handle } (exported dirname entry)) := by
  unfold modLoadParam
  by_cases module : entry.1.name = "module"
  · cases opened : entry.2.dlopen (dirname ++ entry.1.value) with
    | none => simp [Opened, module, opened]
    | some handle =>
        have export_eq : exported dirname entry =
            entry.2.dlsym handle (modStructName entry.1.value) := by
          rw [exported, opened, Option.bind_some]
        rw [export_eq]
        cases alloc : entry.2.alloc
        · simp [Opened, module, opened]
        · exact Or.inr (Or.inr ⟨by simp [Opened, module, opened], rfl, handle, by simp [module]⟩)
  · simp [Opened, module]

end Step

/-! ## The loop -/

variable {dirname}

theorem modLoadLoop_concat (s : ModLoader) (params : List (XmlParam × ModHost))
    (entry : XmlParam × ModHost) :
    modLoadLoop dirname s (params ++ [entry]) =
      if (modLoadLoop dirname s params).1 = reSuccess then
        match modLoadParam dirname (modLoadLoop dirname s params).2 entry.1 entry.2 with
        | none => (reErrorN, (modLoadLoop dirname s params).2)
        | some t => (reSuccess, t)
      else modLoadLoop dirname s params := by
  induction params generalizing s with
  | nil =>
      rw [List.nil_append, modLoadLoop, modLoadLoop, if_pos rfl]
      cases modLoadParam dirname s entry.1 entry.2 <;> rfl
  | cons first params induction =>
      rw [List.cons_append, modLoadLoop, modLoadLoop]
      cases modLoadParam dirname s first.1 first.2 with
      | none => rfl
      | some t => exact induction t

/-- The loader gives up exactly when there is no memory for a module. -/
theorem modLoadLoop_eq_reSuccess_iff (params : List (XmlParam × ModHost)) :
    (modLoadLoop dirname {} params).1 = reSuccess ↔ ∀ entry ∈ params, Held dirname entry := by
  induction params using List.reverseRecOn with
  | nil => simp [modLoadLoop]
  | append_singleton params entry induction =>
      rw [modLoadLoop_concat, List.forall_mem_append, List.forall_mem_singleton, ← induction]
      split
      · rename_i completed
        rcases modLoadParam_cases dirname (modLoadLoop dirname {} params).2 entry with
          ⟨closed, next⟩ | ⟨opened, full, next⟩ | ⟨_, room, _, next⟩
        · simp [next, completed, Held, closed]
        · simp [next, Held, opened, full, reErrorN, reSuccess]
        · simp [next, completed, Held, room]
      · rename_i aborted
        simp [aborted]

/-- A run to the end has loaded the modules that can be opened. -/
theorem load_mem_modLoadLoop {params : List (XmlParam × ModHost)}
    (completed : (modLoadLoop dirname {} params).1 = reSuccess) {name : String} :
    .load name ∈ (modLoadLoop dirname {} params).2.log ↔
      ∃ entry ∈ params, Opened dirname entry ∧ entry.1.value = name := by
  induction params using List.reverseRecOn with
  | nil => simp [modLoadLoop]
  | append_singleton params entry induction =>
      have before : (modLoadLoop dirname {} params).1 = reSuccess := by
        rw [modLoadLoop_eq_reSuccess_iff] at completed ⊢
        exact fun earlier member => completed earlier (List.mem_append_left _ member)
      have earlier := induction before
      rw [modLoadLoop_concat, if_pos before] at completed ⊢
      rcases modLoadParam_cases dirname (modLoadLoop dirname {} params).2 entry with
        ⟨closed, next⟩ | ⟨_, _, next⟩ | ⟨opened, _, _, next⟩
      · simp [next, earlier, closed, or_and_right, exists_or]
      · simp [next, reErrorN, reSuccess] at completed
      · simp [next, earlier, opened, or_and_right, exists_or]

/-- The init functions of a run are in order exactly when the configuration is. -/
theorem depsFirst_modLoadLoop_iff (params : List (XmlParam × ModHost)) :
    DepsFirst (modLoadLoop dirname {} params).2.log ↔ DepsMet dirname params := by
  induction params using List.reverseRecOn with
  | nil => exact iff_of_true EventLog.obeys_nil EventLog.obeys_nil
  | append_singleton params entry induction =>
      rw [DepsMet, EventLog.obeys_concat_iff, ← DepsMet, ← induction, modLoadLoop_concat,
        ← modLoadLoop_eq_reSuccess_iff]
      split
      · rename_i completed
        rcases modLoadParam_cases dirname (modLoadLoop dirname {} params).2 entry with
          ⟨closed, next⟩ | ⟨opened, full, next⟩ | ⟨opened, room, _, next⟩
        · simp [next, DepsBefore, closed]
        · simp [next, Held, opened, full]
        · simp [next, completed, Held, room, DepsBefore, opened, depsFirst_modLoadOpened,
            load_mem_modLoadLoop completed]
      · rename_i aborted
        simp [aborted]

/-- Every init function runs after the dependencies of its module were loaded exactly when, as long
as there is memory, every module with an init function stands behind its dependencies in the list
and they can be opened. -/
theorem depsFirst_modLoadModules_iff (dirname : String) (config : ModConfig) :
    DepsFirst (modLoadModules dirname config).2.log ↔ DepsMet dirname config.list := by
  cases config with
  | missing | unread => exact iff_of_true EventLog.obeys_nil EventLog.obeys_nil
  | params entries => exact depsFirst_modLoadLoop_iff entries

/-- The linker of a directory with `cdrm.so` and with `rt.so`, which depends on it. -/
def ratingHost : ModHost where
  dlopen path :=
    if path = "/lib/cdrm.so" then some 1 else if path = "/lib/rt.so" then some 2 else none
  alloc := true
  dlsym handle sim :=
    if handle = 2 ∧ sim = "rt_mod_t" then some { init := some 0, depends := some ["cdrm.so", ""] }
    else none

/-- A list that names `rt.so` before `cdrm.so`. -/
def ratingFirst : ModConfig :=
  .params [(⟨"module", "rt.so"⟩, ratingHost), (⟨"module", "cdrm.so"⟩, ratingHost)]

/-- The init function of `rt.so` runs although the check of its dependencies has failed. -/
theorem ratingFirst_not_depsFirst : ¬ DepsFirst (modLoadModules "/lib/" ratingFirst).2.log := by
  intro ordered
  let rating : ModDescriptor := { init := some 0, depends := some ["cdrm.so", ""] }
  have log : (modLoadModules "/lib/" ratingFirst).2.log =
      [.check "rt.so" reError, .init "rt.so" rating, .load "rt.so", .load "cdrm.so"] := by
    decide
  have loaded := ordered [.check "rt.so" reError] (.init "rt.so" rating) _ log "cdrm.so" (by decide)
  revert loaded
  decide

end RateEngine
