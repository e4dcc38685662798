import OverloadTables.Command.FileSystem
import Mathlib.Data.List.Basic

/-!
# File operations on a state

Actions on a file system are functions of its state.  A null character in a path is met before any
operation on that path.

* `readFile_eq`, `writeFile_below`   reading and writing as the operations they are;
* `Allowed R`          a relation that making directories and looking for them keeps to;
* `stays_ensureParts`  making all directories of a path keeps to it;
* `writeFile_null_iff` when writing meets a null character.
-/

namespace OverloadTables.Command

variable {σ : Type}

theorem run_bind {α β : Type} (x : StateM σ α) (f : α → StateM σ β) (s : σ) :
    (x >>= f) s = f (x s).1 (x s).2 := rfl

section
variable [FileSystem (StateM σ)]

/-! ## reading -/

theorem readFile_null {p : Path} (h : p.hasNull = true) (s : σ) :
    (readFile p : StateM σ _) s = (.error .nullCharacter, s) := by
  rw [readFile, unlessNull, if_pos h]
  rfl

theorem readFile_eq {p : Path} (h : p.hasNull = false) (s : σ) : (readFile p : StateM σ _) s
    = (resultAt p ((FileSystem.read p : StateM σ _) s).1,
        ((FileSystem.read p : StateM σ _) s).2) := by
  rw [readFile, unlessNull, if_neg (Bool.eq_false_iff.mp h)]
  rfl

theorem resultAt_ne_null {α : Type} (p : Path) (r : Except Refused α) :
    resultAt p r ≠ .error .nullCharacter := by
  cases r <;> exact nofun

theorem hasNull_of_readFile {p : Path} {s : σ}
    (h : ((readFile p : StateM σ _) s).1 = .error .nullCharacter) : p.hasNull = true := by
  cases hp : p.hasNull with
  | true => rfl
  | false =>
    rw [readFile_eq hp] at h
    exact absurd h (resultAt_ne_null p _)

/-! ## directories -/

/-- What making directories and looking for them leaves between states. -/
structure Allowed (R : σ → σ → Prop) : Prop where
  refl : ∀ s, R s s
  trans : ∀ {s t u}, R s t → R t u → R s u
  makeDirectory : ∀ p s, R s ((FileSystem.makeDirectory p : StateM σ _) s).2
  isDirectory : ∀ p s, R s ((FileSystem.isDirectory p : StateM σ _) s).2

/-- The action meets no null character, and stays within what is allowed. -/
def Stays (R : σ → σ → Prop) (x : StateM σ (Except FileFailure Unit)) : Prop :=
  ∀ s, (x s).1 ≠ .error .nullCharacter ∧ R s (x s).2

section
variable {R : σ → σ → Prop} (hR : Allowed R)
include hR

theorem stays_pure {r : Except FileFailure Unit} (hr : r ≠ .error .nullCharacter) :
    Stays R (pure r) := fun s => ⟨hr, hR.refl s⟩

theorem stays_bind {α : Type} {x : StateM σ α} {f : α → StateM σ (Except FileFailure Unit)}
    (hx : ∀ s, R s (x s).2) (hf : ∀ a, Stays R (f a)) : Stays R (x >>= f) := fun s =>
  ⟨(hf _ _).1, hR.trans (hx s) (hf _ _).2⟩

theorem stays_unlessDirectory (p : Path) (e : Refused) : Stays R (unlessDirectory p e) := by
  refine stays_bind hR (hR.isDirectory p) fun b => ?_
  cases b <;> exact stays_pure hR nofun

theorem stays_ensureLast (p : Path) : Stays R (ensureLast p) := by
  refine stays_bind hR (hR.makeDirectory p) fun r => ?_
  split
  · exact stays_pure hR nofun
  · exact stays_pure hR nofun
  · exact stays_unlessDirectory hR p _

theorem stays_ensureParts (anchor : Anchor) (parts : List String) :
    Stays R (ensureParts anchor parts) := by
  induction parts with
  | nil => exact stays_ensureLast hR _
  | cons part above ih =>
    refine stays_bind hR (hR.makeDirectory _) fun r => ?_
    split
    · exact stays_pure hR nofun
    · intro s
      obtain ⟨hnull, habove⟩ := ih s
      rw [run_bind]
      cases hr : ((ensureParts anchor above : StateM σ _) s).1 with
      | ok u =>
        obtain ⟨hlast, hR'⟩ := stays_ensureLast hR ⟨anchor, (part :: above).reverse⟩
          ((ensureParts anchor above : StateM σ _) s).2
        exact ⟨hlast, hR.trans habove hR'⟩
      | error f =>
        refine ⟨?_, habove⟩
        rintro ⟨⟩
        exact hnull hr
    · exact stays_unlessDirectory hR _ _

end

theorem hasNull_parent {p : Path} (h : p.parent.hasNull = true) : p.hasNull = true := by
  rw [Path.hasNull, List.any_eq_true] at h ⊢
  obtain ⟨part, hpart, hnull⟩ := h
  exact ⟨part, List.dropLast_subset _ hpart, hnull⟩

theorem hasNull_of_ensureDirectory {p : Path} {s : σ}
    (h : ((ensureDirectory p : StateM σ _) s).1 = .error .nullCharacter) : p.hasNull = true := by
  cases hp : p.hasNull with
  | true => rfl
  | false =>
    have hall : Allowed fun _ _ : σ => True :=
      ⟨fun _ => trivial, fun _ _ => trivial, fun _ _ => trivial, fun _ _ => trivial⟩
    rw [ensureDirectory, unlessNull, if_neg (Bool.eq_false_iff.mp hp)] at h
    exact absurd h (stays_ensureParts hall _ _ s).1

/-! ## writing -/

section
variable {p : Path} (text : String) {s : σ}

theorem writeFile_above {f : FileFailure}
    (h : ((ensureDirectory p.parent : StateM σ _) s).1 = .error f) :
    (writeFile p text : StateM σ _) s
      = (.error f, ((ensureDirectory p.parent : StateM σ _) s).2) := by
  rw [writeFile, run_bind, h]
  rfl

theorem writeFile_null (h : ((ensureDirectory p.parent : StateM σ _) s).1 = .ok ())
    (hp : p.hasNull = true) : (writeFile p text : StateM σ _) s
      = (.error .nullCharacter, ((ensureDirectory p.parent : StateM σ _) s).2) := by
  rw [writeFile, run_bind, h]
  dsimp only
  rw [unlessNull, if_pos hp]
  rfl

theorem writeFile_below (h : ((ensureDirectory p.parent : StateM σ _) s).1 = .ok ())
    (hp : p.hasNull = false) : (writeFile p text : StateM σ _) s
      = (resultAt p ((FileSystem.write p text : StateM σ _)
          ((ensureDirectory p.parent : StateM σ _) s).2).1,
        ((FileSystem.write p text : StateM σ _)
          ((ensureDirectory p.parent : StateM σ _) s).2).2) := by
  rw [writeFile, run_bind, h]
  dsimp only
  rw [unlessNull, if_neg (Bool.eq_false_iff.mp hp)]
  rfl

/-- Writing meets a null character in the path, unless a directory above it is refused. -/
theorem writeFile_null_iff : ((writeFile p text : StateM σ _) s).1 = .error .nullCharacter ↔
    p.hasNull = true ∧
      ∀ f, ((ensureDirectory p.parent : StateM σ _) s).1 ≠ .error (.refused f) := by
  cases habove : ((ensureDirectory p.parent : StateM σ _) s).1 with
  | error f =>
    rw [writeFile_above text habove]
    cases f with
    | refused f => exact iff_of_false nofun fun h => h.2 f rfl
    | nullCharacter =>
      exact iff_of_true rfl ⟨hasNull_parent (hasNull_of_ensureDirectory habove), nofun⟩
  | ok u =>
    cases hp : p.hasNull with
    | true =>
      rw [writeFile_null text habove hp]
      exact iff_of_true rfl ⟨rfl, nofun⟩
    | false =>
      rw [writeFile_below text habove hp]
      exact iff_of_false (resultAt_ne_null p _) nofun

end

end

end OverloadTables.Command
