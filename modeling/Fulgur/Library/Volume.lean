import Mathlib.Data.List.Basic
import Mathlib.Logic.Function.Basic

/-! # Volumes that crash

A volume maps names to nodes. What is changed is seen at once, but the disk may
still hold any of the directories since the last one that was synced: a crash
leaves one of these, and of a node that was not synced itself anything at all.
-/

namespace Volumes

structure Entry (ν : Type) where
  node : ν
  synced : Bool
deriving DecidableEq

structure Volume (κ ν : Type) where
  visible : κ → Option (Entry ν)
  /-- The directories that the disk may hold. -/
  versions : List (κ → Option (Entry ν))
  current : visible ∈ versions

namespace Volume

variable {κ ν : Type}

/-- A volume that has been at rest: all of it is on the disk. -/
def settled (nodes : κ → Option ν) : Volume κ ν where
  visible name := (nodes name).map fun node => ⟨node, true⟩
  versions := [fun name => (nodes name).map fun node => ⟨node, true⟩]
  current := List.mem_singleton_self _

/-- What is seen under each name. -/
def nodes (v : Volume κ ν) (name : κ) : Option ν := (v.visible name).map Entry.node

@[simp] theorem nodes_settled (found : κ → Option ν) : (settled found).nodes = found := by
  funext name
  change ((found name).map _).map Entry.node = found name
  cases found name <;> rfl

/-- One change of the directory: the disk may hold it or not. -/
def change (v : Volume κ ν) (f : (κ → Option (Entry ν)) → κ → Option (Entry ν)) : Volume κ ν where
  visible := f v.visible
  versions := v.versions ++ [f v.visible]
  current := List.mem_append_right _ (List.mem_singleton_self _)

/-- The directory that is seen is on the disk from here on. -/
def syncDirectory (v : Volume κ ν) : Volume κ ν where
  visible := v.visible
  versions := [v.visible]
  current := List.mem_singleton_self _

/-- What a crash may leave of one entry. -/
def Left (found : Option ν) : Option (Entry ν) → Prop
  | none => found = none
  | some entry => if entry.synced then found = some entry.node else found.isSome = true

/-- What may be found after a crash. -/
def Crash (v : Volume κ ν) (found : κ → Option ν) : Prop :=
  ∃ version ∈ v.versions, ∀ name, Left (found name) (version name)

/-- Something holds of every directory that the disk may hold, so also of the one that is seen. -/
def Always (v : Volume κ ν) (P : (κ → Option (Entry ν)) → Prop) : Prop :=
  ∀ version ∈ v.versions, P version

variable {v : Volume κ ν} {P : (κ → Option (Entry ν)) → Prop}

theorem Always.visible (h : v.Always P) : P v.visible := h v.visible v.current

theorem Always.imp {Q : (κ → Option (Entry ν)) → Prop} (h : v.Always P) (hPQ : ∀ d, P d → Q d) :
    v.Always Q := fun version hversion => hPQ version (h version hversion)

theorem always_settled {nodes : κ → Option ν} (h : P (settled nodes).visible) :
    (settled nodes).Always P := by
  intro version hversion
  rw [List.mem_singleton.mp hversion]
  exact h

theorem Always.change (h : v.Always P) {f : (κ → Option (Entry ν)) → κ → Option (Entry ν)}
    (hf : P (f v.visible)) : (v.change f).Always P := by
  intro version hversion
  rcases List.mem_append.mp hversion with hold | hnew
  · exact h version hold
  · rw [List.mem_singleton.mp hnew]
    exact hf

theorem Always.syncDirectory (h : v.Always P) : v.syncDirectory.Always P := by
  intro version hversion
  rw [List.mem_singleton.mp hversion]
  exact h.visible

/-- A crash leaves what one of the directories holds. -/
theorem Always.exists_of_crash (h : v.Always P) {found : κ → Option ν} (hcrash : v.Crash found) :
    ∃ version, P version ∧ ∀ name, Left (found name) (version name) := by
  obtain ⟨version, hversion, hleft⟩ := hcrash
  exact ⟨version, h version hversion, hleft⟩

/-! ## Changes under one name -/

variable [DecidableEq κ]

/-- Put a node under a name; it is not synced. -/
def put (v : Volume κ ν) (name : κ) (node : ν) : Volume κ ν :=
  v.change fun directory => Function.update directory name (some ⟨node, false⟩)

/-- All of a node is on the disk from here on. -/
def sync (v : Volume κ ν) (name : κ) : Volume κ ν :=
  v.change fun directory => Function.update directory name
    ((directory name).map fun entry => { entry with synced := true })

/-- Change what is recorded about a node along with its contents. -/
def modify (v : Volume κ ν) (name : κ) (f : ν → ν) : Volume κ ν :=
  v.change fun directory => Function.update directory name
    ((directory name).map fun entry => { entry with node := f entry.node })

/-- Move a node to another name; what was there is gone in the same moment. -/
def rename (v : Volume κ ν) (source target : κ) : Volume κ ν :=
  v.change fun directory =>
    Function.update (Function.update directory target (directory source)) source none

def remove (v : Volume κ ν) (name : κ) : Volume κ ν :=
  v.change fun directory => Function.update directory name none

/-- The same under every name but one. -/
def AgreeOff (name : κ) (d d' : κ → Option (Entry ν)) : Prop :=
  ∀ other, other ≠ name → d' other = d other

omit [DecidableEq κ] in
theorem AgreeOff.refl (name : κ) (d : κ → Option (Entry ν)) : AgreeOff name d d := fun _ _ => rfl

theorem AgreeOff.update {name : κ} {d d' : κ → Option (Entry ν)} (h : AgreeOff name d d')
    (entry : Option (Entry ν)) : AgreeOff name d (Function.update d' name entry) :=
  fun other hother => (Function.update_of_ne hother _ _).trans (h other hother)

end Volume

end Volumes
