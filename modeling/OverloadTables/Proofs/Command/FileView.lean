import OverloadTables.Command.Volume
import OverloadTables.Proofs.Command.Files
import OverloadTables.Proofs.Except

/-!
# The files of a file system

Files are told apart by what a file system knows them by, and two paths may lead to one file.  An
operation that is refused leaves everything as it was.

* `FileView σ`         the files of a file system, and what its operations do to them;
* `FileView.Same`      every file holds what it held;
* `wrote_of_writeFile`, `same_of_writeFile`   what a text that is written, and one that is not, leave;
* `Volume.view`        the files of a volume.
-/

namespace OverloadTables.Command

section
variable (σ : Type) [FileSystem (StateM σ)]

/-- The files of a file system: `find` follows a path, and `bytes` is what a file holds, or none
where it is not there.  Reading changes nothing, nor does an operation that is refused; making a
directory changes no file, and writing changes the one that the path leads to. -/
structure FileView where
  File : Type
  find : σ → Path → Option File
  bytes : σ → File → Option ByteArray
  read_state : ∀ p s, ((FileSystem.read p : StateM σ _) s).2 = s
  read_bytes : ∀ {p s b}, ((FileSystem.read p : StateM σ _) s).1 = .ok b →
    ∃ file, find s p = some file ∧ bytes s file = some b
  isDirectory_state : ∀ p s, ((FileSystem.isDirectory p : StateM σ _) s).2 = s
  makeDirectory_bytes : ∀ p s file,
    bytes ((FileSystem.makeDirectory p : StateM σ _) s).2 file = bytes s file
  write_refused : ∀ {p text s e}, ((FileSystem.write p text : StateM σ _) s).1 = .error e →
    ((FileSystem.write p text : StateM σ _) s).2 = s
  write_bytes : ∀ {p text s}, ((FileSystem.write p text : StateM σ _) s).1 = .ok () →
    ∃ file, find ((FileSystem.write p text : StateM σ _) s).2 p = some file ∧
      bytes ((FileSystem.write p text : StateM σ _) s).2 file = some text.toUTF8 ∧
      ∀ other, other ≠ file →
        bytes ((FileSystem.write p text : StateM σ _) s).2 other = bytes s other

end

namespace FileView

section
variable {σ : Type} [FileSystem (StateM σ)] (view : FileView σ)

/-- Every file holds what it held, and no file is there that was not. -/
def Same (s s' : σ) : Prop := ∀ file, view.bytes s' file = view.bytes s file

/-- The file at `p` holds `text`, and every other file what it held. -/
def Wrote (s s' : σ) (p : Path) (text : String) : Prop :=
  ∃ file, view.find s' p = some file ∧ view.bytes s' file = some text.toUTF8 ∧
    ∀ other, other ≠ file → view.bytes s' other = view.bytes s other

theorem allowed_same : Allowed view.Same where
  refl _ _ := rfl
  trans hst htu file := (htu file).trans (hst file)
  makeDirectory p s file := view.makeDirectory_bytes p s file
  isDirectory p s file := by rw [view.isDirectory_state]

theorem same_ensureDirectory (p : Path) (s : σ) :
    view.Same s ((ensureDirectory p : StateM σ _) s).2 := by
  rw [ensureDirectory, unlessNull]
  split
  · exact fun _ => rfl
  · exact (stays_ensureParts view.allowed_same _ _ s).2

include view in
/-- Reading a file leaves everything as it was. -/
theorem readFile_state (p : Path) (s : σ) : ((readFile p : StateM σ _) s).2 = s := by
  cases hp : p.hasNull with
  | true => rw [readFile_null hp]
  | false => rw [readFile_eq hp, view.read_state]

theorem readFile_bytes {p : Path} {s : σ} {b : ByteArray}
    (h : ((readFile p : StateM σ _) s).1 = .ok b) :
    ∃ file, view.find s p = some file ∧ view.bytes s file = some b := by
  cases hp : p.hasNull with
  | true =>
    rw [readFile_null hp] at h
    exact nomatch h
  | false =>
    rw [readFile_eq hp] at h
    exact view.read_bytes (mapError_eq_ok.mp h)

section
variable {p : Path} {text : String} {s s' : σ}

theorem wrote_of_writeFile (h : (writeFile p text : StateM σ _) s = (.ok (), s')) :
    view.Wrote s s' p text := by
  have hsame := view.same_ensureDirectory p.parent s
  cases habove : ((ensureDirectory p.parent : StateM σ _) s).1 with
  | error f =>
    rw [writeFile_above text habove] at h
    exact nomatch h
  | ok u =>
    cases hp : p.hasNull with
    | true =>
      rw [writeFile_null text habove hp] at h
      exact nomatch h
    | false =>
      rw [writeFile_below text habove hp] at h
      obtain ⟨hwrite, rfl⟩ := Prod.mk.inj h
      obtain ⟨file, hfind, hbytes, hother⟩ := view.write_bytes (mapError_eq_ok.mp hwrite)
      exact ⟨file, hfind, hbytes, fun other hne => (hother other hne).trans (hsame other)⟩

theorem same_of_writeFile {f : FileFailure}
    (h : (writeFile p text : StateM σ _) s = (.error f, s')) : view.Same s s' := by
  have hsame := view.same_ensureDirectory p.parent s
  cases habove : ((ensureDirectory p.parent : StateM σ _) s).1 with
  | error f' =>
    rw [writeFile_above text habove] at h
    obtain ⟨-, rfl⟩ := Prod.mk.inj h
    exact hsame
  | ok u =>
    cases hp : p.hasNull with
    | true =>
      rw [writeFile_null text habove hp] at h
      obtain ⟨-, rfl⟩ := Prod.mk.inj h
      exact hsame
    | false =>
      rw [writeFile_below text habove hp] at h
      obtain ⟨hwrite, rfl⟩ := Prod.mk.inj h
      obtain ⟨e, he, -⟩ := mapError_eq_error.mp hwrite
      rw [view.write_refused he]
      exact hsame

end

end

end FileView

/-! ## volumes -/

namespace Volume

/-- What the file at a location holds. -/
def bytesAt (v : Volume) (l : Location) : Option ByteArray :=
  match v.node? l with
  | some (.file b) => some b
  | _ => none

def find? (v : Volume) (p : Path) : Option Location := (v.locate p).toOption

theorem lookup_filter_ne {l l' : Location} (h : l' ≠ l) (nodes : List (Location × Node)) :
    (nodes.filter (·.1 ≠ l)).lookup l' = nodes.lookup l' := by
  induction nodes with
  | nil => rfl
  | cons n nodes ih =>
    by_cases hn : n.1 = l
    · have hne : (l' == n.1) = false := by
        rw [hn]
        exact beq_eq_false_iff_ne.mpr h
      rw [List.filter_cons_of_neg (by simp [hn]), ih, List.lookup_cons, hne]
    · rw [List.filter_cons_of_pos (by simp [hn]), List.lookup_cons, List.lookup_cons, ih]

section
variable {v : Volume} {l : Location} (n : Node)

theorem node?_put_self (h : l ≠ []) : (v.put l n).node? l = some n := by
  rw [node?, if_neg h, put, List.lookup_cons, beq_self_eq_true]

theorem node?_put_of_ne {l' : Location} (h : l' ≠ l) : (v.put l n).node? l' = v.node? l' := by
  have hne : (l' == l) = false := beq_eq_false_iff_ne.mpr h
  rw [node?, node?, put, List.lookup_cons, hne]
  dsimp only
  rw [lookup_filter_ne h]

section
variable (hl : v.node? l ≠ some .directory)
include hl

theorem ne_nil_of_not_directory : l ≠ [] := by
  rintro rfl
  exact hl rfl

/-- What a walk passes is a directory, so a walk does not see what else is put somewhere. -/
theorem walk_put {from_ to_ : Location} {parts : List String} (h : v.walk from_ parts = .ok to_) :
    (v.put l n).walk from_ parts = .ok to_ := by
  induction parts generalizing from_ with
  | nil => exact h
  | cons part parts ih =>
    rw [walk] at h
    cases hnode : v.node? from_ with
    | none =>
      rw [hnode] at h
      exact nomatch h
    | some m =>
      rw [hnode] at h
      cases m with
      | file b => exact nomatch h
      | directory =>
        have hne : from_ ≠ l := by
          rintro rfl
          exact hl hnode
        rw [walk, node?_put_of_ne n hne, hnode]
        dsimp only at h ⊢
        split at h
        · next hup =>
          rw [if_pos hup]
          exact ih h
        · next hdown =>
          split at h
          · exact nomatch h
          · next hshort =>
            rw [if_neg hdown, if_neg hshort]
            exact ih h

theorem locate_put {p : Path} {to_ : Location} (h : v.locate p = .ok to_) :
    (v.put l n).locate p = .ok to_ := by
  rw [locate] at h ⊢
  split at h
  · exact nomatch h
  · next hshort =>
    rw [if_neg hshort]
    cases ha : p.anchor <;> rw [ha] at h <;> exact walk_put n hl h

end

theorem bytesAt_put_of_ne {l' : Location} (h : l' ≠ l) :
    (v.put l n).bytesAt l' = v.bytesAt l' := by
  rw [bytesAt, bytesAt, node?_put_of_ne n h]

end

section
variable {v v' : Volume} {p : Path}

theorem write_eq_ok {text : String} (h : v.write p text = .ok v') : ∃ l, v.locate p = .ok l ∧
    v.node? l ≠ some .directory ∧ v' = v.put l (.file text.toUTF8) := by
  obtain ⟨l, hl, hrest⟩ := bind_eq_ok.mp h
  cases hnode : v.node? l with
  | none =>
    rw [hnode] at hrest
    obtain rfl := pure_eq_ok.mp hrest
    exact ⟨l, hl, fun h => (nomatch hnode.symm.trans h), rfl⟩
  | some n =>
    rw [hnode] at hrest
    cases n with
    | directory => exact nomatch hrest
    | file b =>
      obtain rfl := pure_eq_ok.mp hrest
      exact ⟨l, hl, fun h => (nomatch hnode.symm.trans h), rfl⟩

theorem makeDirectory_eq_ok (h : v.makeDirectory p = .ok v') :
    ∃ l, v.node? l = none ∧ v' = v.put l .directory := by
  obtain ⟨l, -, hrest⟩ := bind_eq_ok.mp h
  by_cases hthere : p.parts = [] ∨ p.parts.getLast? = some ".." ∨ (v.node? l).isSome
  · rw [if_pos hthere] at hrest
    exact nomatch hrest
  · rw [if_neg hthere] at hrest
    obtain rfl := pure_eq_ok.mp hrest
    have hnone := not_or.mp (not_or.mp hthere).2
    exact ⟨l, Option.not_isSome_iff_eq_none.mp hnone.2, rfl⟩

/-- A directory that is made changes no file. -/
theorem bytesAt_makeDirectory (h : v.makeDirectory p = .ok v') (l : Location) :
    v'.bytesAt l = v.bytesAt l := by
  obtain ⟨made, hnone, rfl⟩ := makeDirectory_eq_ok h
  by_cases hl : l = made
  · have hne : made ≠ [] := ne_nil_of_not_directory fun h => nomatch hnone.symm.trans h
    rw [hl, bytesAt, bytesAt, node?_put_self _ hne, hnone]
  · exact bytesAt_put_of_ne _ hl

end

/-- The files of a volume are told apart by their locations. -/
def view : FileView Volume where
  File := Location
  find := find?
  bytes := bytesAt
  read_state _ _ := rfl
  read_bytes {p v b} h := by
    obtain ⟨l, hl, hrest⟩ := bind_eq_ok.mp h
    refine ⟨l, by rw [find?, hl]; rfl, ?_⟩
    rw [bytesAt]
    cases hnode : v.node? l with
    | none =>
      rw [hnode] at hrest
      exact nomatch hrest
    | some n =>
      rw [hnode] at hrest
      cases n with
      | directory => exact nomatch hrest
      | file b' => exact congrArg some (pure_eq_ok.mp hrest)
  isDirectory_state _ _ := rfl
  makeDirectory_bytes p v l := by
    show (change (·.makeDirectory p) v).2.bytesAt l = v.bytesAt l
    rw [change]
    cases hmake : v.makeDirectory p with
    | error e => rfl
    | ok v' => exact bytesAt_makeDirectory hmake l
  write_refused {p text v e} h := by
    change (change (·.write p text) v).1 = .error e at h
    show (change (·.write p text) v).2 = v
    rw [change] at h ⊢
    cases hwrite : v.write p text with
    | error e => rfl
    | ok v' =>
      rw [hwrite] at h
      exact nomatch h
  write_bytes {p text v} h := by
    change (change (·.write p text) v).1 = .ok () at h
    show ∃ l, (change (·.write p text) v).2.find? p = some l ∧
      (change (·.write p text) v).2.bytesAt l = some text.toUTF8 ∧
      ∀ l', l' ≠ l → (change (·.write p text) v).2.bytesAt l' = v.bytesAt l'
    rw [change] at h ⊢
    cases hwrite : v.write p text with
    | error e =>
      rw [hwrite] at h
      exact nomatch h
    | ok v' =>
      obtain ⟨l, hl, hfree, rfl⟩ := write_eq_ok hwrite
      refine ⟨l, ?_, ?_, fun l' hl' => bytesAt_put_of_ne _ hl'⟩
      · rw [find?, locate_put _ hfree hl]
        rfl
      · rw [bytesAt, node?_put_self _ (ne_nil_of_not_directory hfree)]

end Volume

end OverloadTables.Command
