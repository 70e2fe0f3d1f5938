import Os161.File.OpenFile

namespace Os161.File
open Vm Outcome Transition List

abbrev eNoDev : Errno := 25
abbrev eNxio : Errno := 26

/-- A string of C without the byte that ends it. -/
abbrev CString := List Byte

/-- A file system with the string or `NULL` that `FSOP_GETVOLNAME` returns for it. -/
structure Fs where
  id : Nat
  volname : Option CString
deriving DecidableEq

/-- `struct knowndev` -/
structure Knowndev where
  name : CString
  rawname : Option CString
  device : Option Nat
  vnode : Vnode
  fs : Option Fs
deriving DecidableEq

/-- The array `knowndevs` -/
abbrev Knowndevs := List Knowndev

/-- What `vfs_getroot` finds: the root of a file system or a device itself. -/
inductive Root where
  | root (fs : Fs)
  | device (vnode : Vnode)
deriving DecidableEq

/-- One round of the loop in `vfs_getroot`; it goes on to the next entry with no answer. -/
def Knowndev.getroot (kd : Knowndev) (devname : CString) : Option (Kernel (Except Errno Root)) :=
  let device : Kernel (Except Errno Root) := do
    kassert (kd.device ≠ none) "kd->kd_device != NULL"
    return .ok (.device kd.vnode)
  let unmounted : Option (Kernel (Except Errno Root)) :=
    if kd.name = devname then
      some do
        kassert (kd.fs = none) "kd->kd_fs==NULL"
        kassert (kd.rawname = none) "kd->kd_rawname==NULL"
        device
    else if kd.rawname = some devname then some device
    else none
  match kd.fs with
  | some fs =>
    if kd.name = devname ∨ fs.volname = some devname then some (.ok (.ok (.root fs)))
    else unmounted
  | none =>
    if kd.rawname ≠ none ∧ kd.name = devname then some (.ok (.error eNxio)) else unmounted

def vfsGetroot : Knowndevs → CString → Kernel (Except Errno Root)
  | [], _ => .ok (.error eNoDev)
  | kd :: rest, devname =>
    match kd.getroot devname with
    | some answer => answer
    | none => vfsGetroot rest devname

def mkrawname (name : CString) : CString :=
  name ++ [114, 97, 119]

def samestring (a b : Option CString) : Bool :=
  a.isSome && b.isSome && a == b

def samestring3 (a b c d : Option CString) : Bool :=
  samestring a b || samestring a c || samestring a d

def badnames (knowndevs : Knowndevs) (n1 n2 n3 : Option CString) : Bool :=
  knowndevs.any fun kd =>
    samestring3 (kd.fs.bind Fs.volname) n1 n2 n3 ||
      (samestring3 kd.rawname n1 n2 n3 || samestring3 (some kd.name) n1 n2 n3)

/-- Which allocations of `vfs_doadd` succeed, and the vnode that it gets from `dev_create_vnode`. -/
structure AddMemory where
  name : Bool
  rawname : Bool
  vnode : Option Vnode
  kd : Bool
  array : Bool
deriving DecidableEq

/-- `vfs_doadd`; with `mountable` set the entry has the name of a raw device. -/
def vfsDoadd (knowndevs : Knowndevs) (dname : CString) (mountable : Bool) (dev : Option Nat)
    (fs : Option Fs) (memory : AddMemory) : Errno × Knowndevs :=
  if ¬ memory.name then (eNoMem, knowndevs)
  else if mountable ∧ ¬ memory.rawname then (eNoMem, knowndevs)
  else
    match memory.vnode with
    | none => (eNoMem, knowndevs)
    | some vnode =>
      if ¬ memory.kd then (eNoMem, knowndevs)
      else
        let rawname := if mountable then some (mkrawname dname) else none
        if badnames knowndevs (some dname) rawname (fs.bind Fs.volname) then
          (eExist, knowndevs)
        else if ¬ memory.array then (eNoMem, knowndevs)
        else (0, knowndevs ++ [⟨dname, rawname, dev, vnode, fs⟩])

def vfsAdddev (knowndevs : Knowndevs) (devname : CString) (dev : Nat) (mountable : Bool)
    (memory : AddMemory) : Errno × Knowndevs :=
  vfsDoadd knowndevs devname mountable (some dev) none memory

def vfsAddfs (knowndevs : Knowndevs) (devname : CString) (fs : Fs) (memory : AddMemory) :
    Errno × Knowndevs :=
  vfsDoadd knowndevs devname false none (some fs) memory

def findmount (knowndevs : Knowndevs) (devname : CString) : Option (Fin knowndevs.length) :=
  knowndevs.findFinIdx? fun kd => kd.rawname.isSome && kd.name == devname

/-- `vfs_mount`, where `mountfunc` fails or returns a file system. -/
def vfsMount (knowndevs : Knowndevs) (devname : CString) (mountfunc : Except Errno Fs) :
    Kernel (Errno × Knowndevs) :=
  match findmount knowndevs devname with
  | none => return (eNoDev, knowndevs)
  | some i => do
    let kd := knowndevs.get i
    if kd.fs ≠ none then return (eBusy, knowndevs)
    kassert (kd.rawname ≠ none) "kd->kd_rawname != NULL"
    kassert (kd.device ≠ none) "kd->kd_device != NULL"
    match mountfunc with
    | .error result => return (result, knowndevs)
    | .ok fs => return (0, knowndevs.set i { kd with fs := some fs })

/-- `vfs_unmount`, with the results of `FSOP_SYNC` and `FSOP_UNMOUNT` -/
def vfsUnmount (knowndevs : Knowndevs) (devname : CString) (synced unmounted : Errno) :
    Kernel (Errno × Knowndevs) :=
  match findmount knowndevs devname with
  | none => return (eNoDev, knowndevs)
  | some i => do
    let kd := knowndevs.get i
    if kd.fs = none then return (eInval, knowndevs)
    kassert (kd.rawname ≠ none) "kd->kd_rawname != NULL"
    kassert (kd.device ≠ none) "kd->kd_device != NULL"
    if synced ≠ 0 then return (synced, knowndevs)
    if unmounted ≠ 0 then return (unmounted, knowndevs)
    return (0, knowndevs.set i { kd with fs := none })

/-- A call that can change the table, with what it finds outside the table. -/
inductive DevCall where
  | adddev (devname : CString) (dev : Nat) (mountable : Bool) (memory : AddMemory)
  | addfs (devname : CString) (fs : Fs) (memory : AddMemory)
  | mount (devname : CString) (mountfunc : Except Errno Fs)
  | unmount (devname : CString) (synced unmounted : Errno)

/-- The result of a call and the table after it. -/
def DevCall.perform (knowndevs : Knowndevs) : DevCall → Kernel (Errno × Knowndevs)
  | .adddev devname dev mountable memory => return vfsAdddev knowndevs devname dev mountable memory
  | .addfs devname fs memory => return vfsAddfs knowndevs devname fs memory
  | .mount devname mountfunc => vfsMount knowndevs devname mountfunc
  | .unmount devname synced unmounted => vfsUnmount knowndevs devname synced unmounted

/-- One call that returns. -/
def DevStep (knowndevs : Knowndevs) (call : DevCall) (next : Knowndevs) : Prop :=
  ∃ result, call.perform knowndevs = .ok (result, next)

/-- The string is the device name, the name of the raw device or the name of the mounted volume. -/
def Knowndev.Named (kd : Knowndev) (name : CString) : Prop :=
  kd.name = name ∨ kd.rawname = some name ∨ kd.fs.bind Fs.volname = some name

/-- Two different entries have no name in common. -/
def Unambiguous (knowndevs : Knowndevs) : Prop :=
  knowndevs.Pairwise fun kd other => ∀ name, kd.Named name → ¬ other.Named name

variable {kd : Knowndev} {devname : CString}

theorem Knowndev.getroot_none : kd.getroot devname = none ↔ ¬ kd.Named devname := by
  unfold getroot Named
  cases kd.fs with
  | none => grind
  | some fs => grind

variable {knowndevs : Knowndevs}

theorem vfsGetroot_perm {order : Knowndevs} (same : order.Perm knowndevs)
    (unambiguous : Unambiguous knowndevs) (name : CString) :
    vfsGetroot order name = vfsGetroot knowndevs name := by
  have symmetric : ∀ {kd other : Knowndev}, (∀ name, kd.Named name → ¬ other.Named name) →
      ∀ name, other.Named name → ¬ kd.Named name :=
    fun apart name named again => apart name again named
  induction same with
  | nil => rfl
  | cons kd same ih =>
    unfold vfsGetroot
    rw [ih (pairwise_cons.mp unambiguous).2]
  | swap kd other rest =>
    have apart := (pairwise_cons.mp unambiguous).1 other mem_cons_self name
    by_cases named : kd.Named name
    · have silent := Knowndev.getroot_none.mpr (apart named)
      simp only [vfsGetroot, silent]
    · have silent := Knowndev.getroot_none.mpr named
      simp only [vfsGetroot, silent]
  | trans first second firstIh secondIh =>
    have middle : Unambiguous _ := (second.pairwise_iff symmetric).mpr unambiguous
    exact (firstIh middle).trans (secondIh unambiguous)

theorem badnames_false (fine : badnames knowndevs n1 n2 n3 = false) (mem : kd ∈ knowndevs)
    (listed : n1 = some name ∨ n2 = some name ∨ n3 = some name) : ¬ kd.Named name := by
  intro named
  have silent := any_eq_false.mp fine kd mem
  rcases named with rfl | raw | volume
  · rcases listed with rfl | rfl | rfl <;> simp [samestring3, samestring] at silent
  · rcases listed with rfl | rfl | rfl <;> simp [samestring3, samestring, raw] at silent
  · rcases listed with rfl | rfl | rfl <;> simp [samestring3, samestring, volume] at silent

theorem vfsDoadd_end (knowndevs : Knowndevs) (dname : CString) (mountable : Bool)
    (dev : Option Nat) (fs : Option Fs) (memory : AddMemory) :
    (vfsDoadd knowndevs dname mountable dev fs memory).2 = knowndevs ∨
      ∃ vnode rawname, badnames knowndevs (some dname) rawname (fs.bind Fs.volname) = false ∧
        (vfsDoadd knowndevs dname mountable dev fs memory).2 =
          knowndevs ++ [⟨dname, rawname, dev, vnode, fs⟩] := by
  unfold vfsDoadd
  by_cases noName : ¬ memory.name
  · simp [noName]
  by_cases noRaw : mountable ∧ ¬ memory.rawname
  · simp [noRaw]
  rw [if_neg noName, if_neg noRaw]
  cases memory.vnode with
  | none => exact .inl rfl
  | some vnode =>
    dsimp only
    by_cases noKd : ¬ memory.kd
    · exact .inl (by rw [if_pos noKd])
    rw [if_neg noKd]
    generalize (if mountable = true then some (mkrawname dname) else none) = rawname
    cases taken : badnames knowndevs (some dname) rawname (fs.bind Fs.volname) with
    | true => exact .inl rfl
    | false =>
      by_cases noArray : ¬ memory.array
      · exact .inl (by simp [noArray])
      · exact .inr ⟨vnode, rawname, taken, by simp [noArray]⟩

theorem Unambiguous.doadd (unambiguous : Unambiguous knowndevs) (dname : CString) (mountable : Bool)
    (dev : Option Nat) (fs : Option Fs) (memory : AddMemory) :
    Unambiguous (vfsDoadd knowndevs dname mountable dev fs memory).2 := by
  rcases vfsDoadd_end knowndevs dname mountable dev fs memory with same | ⟨vnode, rawname, fine, added⟩
  · rwa [same]
  · rw [added]
    refine pairwise_append.mpr ⟨unambiguous, pairwise_singleton _ _, ?_⟩
    intro kd mem other single name named again
    rw [mem_singleton.mp single] at again
    refine badnames_false fine mem ?_ named
    simpa [Knowndev.Named] using again

theorem Unambiguous.set (unambiguous : Unambiguous knowndevs) (i : Fin knowndevs.length)
    (apart : ∀ j : Fin knowndevs.length, j ≠ i → ∀ name, kd.Named name →
      ¬ (knowndevs.get j).Named name) : Unambiguous (knowndevs.set i kd) := by
  refine pairwise_iff_getElem.mpr fun a b inA inB ordered name named again => ?_
  have inA' : a < knowndevs.length := by simpa using inA
  have inB' : b < knowndevs.length := by simpa using inB
  rw [getElem_set] at named again
  split_ifs at named with atA <;> split_ifs at again with atB
  · omega
  · exact apart ⟨b, inB'⟩ (by simpa [Fin.ext_iff] using Ne.symm atB) name named again
  · exact apart ⟨a, inA'⟩ (by simpa [Fin.ext_iff] using Ne.symm atA) name again named
  · exact pairwise_iff_getElem.mp unambiguous a b inA' inB' ordered name named again

theorem Unambiguous.same (unambiguous : Unambiguous knowndevs) (first : (knowndevs.get i).Named name)
    (second : (knowndevs.get j).Named name) : i = j := by
  have ordered := pairwise_iff_getElem.mp unambiguous
  rcases lt_trichotomy i j with prev | same | after
  · exact absurd second (ordered i j i.2 j.2 prev name first)
  · exact same
  · exact absurd first (ordered j i j.2 i.2 after name second)

theorem findmount_name (found : findmount knowndevs devname = some i) :
    (knowndevs.get i).name = devname ∧ (knowndevs.get i).rawname ≠ none := by
  have here := (List.findFinIdx?_eq_some_iff.mp found).1
  simp only [Bool.and_eq_true, beq_iff_eq] at here
  exact ⟨here.2, Option.isSome_iff_ne_none.mp here.1⟩

variable {next : Knowndevs}

theorem vfsMount_end (mounted : vfsMount knowndevs devname mountfunc = .ok (res, next)) :
    next = knowndevs ∨ ∃ i fs, (knowndevs.get i).name = devname ∧ mountfunc = .ok fs ∧
      next = knowndevs.set i { knowndevs.get i with fs := some fs } := by
  unfold vfsMount at mounted
  cases found : findmount knowndevs devname with
  | none => exact .inl (by simp_all)
  | some i =>
    rw [found] at mounted
    dsimp only at mounted
    split_ifs at mounted with busy
    · exact .inl (by simp_all)
    · obtain ⟨-, mounted⟩ := kassert_bind.mp mounted
      obtain ⟨-, mounted⟩ := kassert_bind.mp mounted
      cases mountfunc with
      | error problem => exact .inl (by simp_all)
      | ok fs =>
        refine .inr ⟨i, fs, (findmount_name found).1, rfl, ?_⟩
        simp_all

theorem vfsUnmount_end (did : vfsUnmount knowndevs devname synced unmounted = .ok (res, next)) :
    next = knowndevs ∨ ∃ i : Fin knowndevs.length, next = knowndevs.set i { knowndevs.get i with fs := none } := by
  unfold vfsUnmount at did
  cases found : findmount knowndevs devname with
  | none => exact .inl (by simp_all)
  | some i =>
    rw [found] at did
    dsimp only at did
    split_ifs at did with free
    · exact .inl (by simp_all)
    · obtain ⟨-, did⟩ := kassert_bind.mp did
      obtain ⟨-, did⟩ := kassert_bind.mp did
      exact .inl (by simp_all)
    · obtain ⟨-, did⟩ := kassert_bind.mp did
      obtain ⟨-, did⟩ := kassert_bind.mp did
      exact .inl (by simp_all)
    · obtain ⟨-, did⟩ := kassert_bind.mp did
      obtain ⟨-, did⟩ := kassert_bind.mp did
      exact .inr ⟨i, by simp_all⟩

/-- The volume of a mount has no name of an entry other than that of the device it is mounted on.
`vfs_mount` does not check this. -/
def DevCall.Fresh (knowndevs : Knowndevs) : DevCall → Prop
  | .mount devname (.ok fs) =>
    ∀ volname, fs.volname = some volname → ∀ kd ∈ knowndevs, kd.Named volname → kd.name = devname
  | _ => True

/-- One call that returns, whose volume has a new name if it is a mount. -/
def FreshStep (knowndevs : Knowndevs) (call : DevCall) (next : Knowndevs) : Prop :=
  DevStep knowndevs call next ∧ call.Fresh knowndevs

theorem FreshStep.unambiguous (step : FreshStep knowndevs call next) (unambiguous : Unambiguous knowndevs) :
    Unambiguous next := by
  obtain ⟨⟨res, did⟩, fresh⟩ := step
  cases call with
  | adddev devname dev mountable memory =>
    have added : (vfsAdddev knowndevs devname dev mountable memory).2 = next :=
      congrArg Prod.snd (Except.ok.inj did)
    rw [← added]
    exact unambiguous.doadd devname mountable (some dev) none memory
  | addfs devname fs memory =>
    have added : (vfsAddfs knowndevs devname fs memory).2 = next :=
      congrArg Prod.snd (Except.ok.inj did)
    rw [← added]
    exact unambiguous.doadd devname false none (some fs) memory
  | mount devname mountfunc =>
    rcases vfsMount_end did with rfl | ⟨i, fs, place, rfl, rfl⟩
    · exact unambiguous
    · refine unambiguous.set i fun j other name named again => other ?_
      rcases named with own | raw | volume
      · exact unambiguous.same again (.inl own)
      · exact unambiguous.same again (.inr (.inl raw))
      · have nameJ := fresh name volume _ (get_mem _ j) again
        exact unambiguous.same (.inl nameJ) (.inl place)
  | unmount devname synced unmounted =>
    rcases vfsUnmount_end did with rfl | ⟨i, rfl⟩
    · exact unambiguous
    · refine unambiguous.set i fun j other name named again => other ?_
      rcases named with own | raw | volume
      · exact unambiguous.same again (.inl own)
      · exact unambiguous.same again (.inr (.inl raw))
      · cases volume

/-- While mounted volumes have new names, no string names two entries. -/
theorem names_unambiguous {calls : List DevCall} {knowndevs : Knowndevs}
    (reached : Run FreshStep [] calls knowndevs) :
    Unambiguous knowndevs ∧
      ∀ order : Knowndevs, order.Perm knowndevs → ∀ name,
        vfsGetroot order name = vfsGetroot knowndevs name := by
  have unambiguous : Unambiguous knowndevs :=
    reached.invariant (fun _ _ _ before step => step.unambiguous before) List.Pairwise.nil
  exact ⟨unambiguous, fun order same name => vfsGetroot_perm same unambiguous name⟩

/-- The names `lhd0` and `lhd1` -/
abbrev lhd0 : CString := [108, 104, 100, 48]

@[inherit_doc lhd0] abbrev lhd1 : CString := [108, 104, 100, 49]

/-- `lhd0` and then `lhd1` are registered, and a volume is mounted on the first. -/
abbrev mountOnFirst (volname : Option CString) : List DevCall :=
  [.adddev lhd0 0 true ⟨true, true, some 0, true, true⟩,
    .adddev lhd1 1 true ⟨true, true, some 1, true, true⟩, .mount lhd0 (.ok ⟨0, volname⟩)]

/-- The table after these calls -/
abbrev mountedOnFirst (volname : Option CString) : Knowndevs :=
  [⟨lhd0, some (mkrawname lhd0), some 0, 0, some ⟨0, volname⟩⟩,
    ⟨lhd1, some (mkrawname lhd1), some 1, 1, none⟩]

/-- The volume may have the name of the device that it is mounted on. -/
theorem names_unambiguous_mounted :
    Unambiguous (mountedOnFirst (some lhd0)) ∧
      vfsGetroot (mountedOnFirst (some lhd0)).reverse lhd0 = .ok (.ok (.root ⟨0, some lhd0⟩)) := by
  have reached : Run FreshStep [] (mountOnFirst (some lhd0)) (mountedOnFirst (some lhd0)) := by
    refine .cons ⟨⟨0, rfl⟩, trivial⟩ (.cons ⟨⟨0, rfl⟩, trivial⟩ (.single ⟨⟨0, rfl⟩, ?_⟩))
    rintro volname named kd member other
    cases named
    rcases mem_cons.mp member with rfl | second
    · rfl
    · rw [mem_singleton.mp second] at other
      simp [Knowndev.Named, mkrawname] at other
  have both := names_unambiguous reached
  exact ⟨both.1, (both.2 _ (reverse_perm _) lhd0).trans rfl⟩

/-- A volume with the name of another device makes that name ambiguous. -/
theorem mount_takes_name : ∃ calls knowndevs, Run DevStep [] calls knowndevs ∧
    ¬ Unambiguous knowndevs ∧
      vfsGetroot knowndevs lhd1 = .ok (.ok (.root ⟨0, some lhd1⟩)) ∧
      vfsGetroot knowndevs.reverse lhd1 = .ok (.error eNxio) := by
  refine ⟨mountOnFirst (some lhd1), mountedOnFirst (some lhd1), ?_, ?_, rfl, rfl⟩
  · exact .cons ⟨0, rfl⟩ (.cons ⟨0, rfl⟩ (.single ⟨0, rfl⟩))
  · intro unambiguous
    have apart := (pairwise_cons.mp unambiguous).1 _ mem_cons_self lhd1
    exact apart (.inr (.inr rfl)) (.inl rfl)

end Os161.File
