import Dovetail.BundleVersions
import Dovetail.Deb822

/-!
# The control file of a Debian package

`controlFor` writes what a spec declares field by field, without looking at
the values.  The file states what was declared exactly where every value keeps
to the lines that its field may have.
-/

namespace Dovetail.Bundler

open CodeUnits Deb822

namespace DebBundler

/-- Only the dependencies and the description may have several lines. -/
def isSimple (name : Text) : Bool :=
  name ≠ text "Depends" ∧ name ≠ text "Description"

def declared (arch : TargetArch) (depends : List Text) (homepage : Option Text)
    (installedKiB : Nat) (spec : BundleSpec) : List Field :=
  (controlFields arch depends homepage installedKiB spec).map
    fun (name, value) => { name, value }

def controlFor (arch : TargetArch) (depends : List Text)
    (homepage : Option Text) (installedKiB : Nat) (spec : BundleSpec) : Text :=
  (controlFields arch depends homepage installedKiB spec).flatMap
    fun (name, value) => name ++ text ": " ++ value ++ [newline]

end DebBundler

section

variable {arch : TargetArch} {depends : List Text} {homepage : Option Text}
  {installedKiB : Nat} {spec : BundleSpec}

theorem DebBundler.controlFor_eq_print :
    DebBundler.controlFor arch depends homepage installedKiB spec =
      Deb822.print
        (DebBundler.declared arch depends homepage installedKiB spec) := by
  have hmark : text ": " = [Deb822.colon, 32] := by decide
  unfold DebBundler.controlFor DebBundler.declared Deb822.print
  rw [List.flatMap_map]
  apply List.flatMap_congr
  intro field _
  simp [Field.line, hmark]

/-- The names of the fields, with or without those that may be absent. -/
def DebBundler.fieldNames (homepage depends : Bool) : List Text :=
  [text "Package", text "Version", text "Architecture", text "Installed-Size",
    text "Maintainer", text "Section", text "Priority"] ++
  (if homepage then [text "Homepage"] else []) ++
  (if depends then [text "Depends"] else []) ++ [text "Description"]

theorem DebBundler.names_declared (arch : TargetArch) (depends : List Text)
    (homepage : Option Text) (installedKiB : Nat) (spec : BundleSpec) :
    (DebBundler.declared arch depends homepage installedKiB spec).map
        (·.name) =
      DebBundler.fieldNames homepage.isSome (!depends.isEmpty) := by
  cases homepage <;> cases depends <;> rfl

theorem DebBundler.isName_declared :
    ∀ field ∈ DebBundler.declared arch depends homepage installedKiB spec,
      isName field.name = true := by
  have hnames : ∀ homepage depends,
      (DebBundler.fieldNames homepage depends).all isName = true := by
    decide
  intro field hfield
  apply List.all_eq_true.mp (hnames homepage.isSome (!depends.isEmpty))
  rw [← names_declared arch depends homepage installedKiB spec]
  exact List.mem_map_of_mem hfield

theorem DebBundler.nodup_declared :
    ((DebBundler.declared arch depends homepage installedKiB spec).map
      fun field => foldCase field.name).Nodup := by
  have hnames : ∀ homepage depends,
      ((DebBundler.fieldNames homepage depends).map foldCase).Nodup := by
    decide
  have hsame : (DebBundler.declared arch depends homepage installedKiB
      spec).map (fun field => foldCase field.name) =
        (fieldNames homepage.isSome (!depends.isEmpty)).map foldCase := by
    rw [← names_declared arch depends homepage installedKiB spec,
      List.map_map]
    rfl
  rw [hsame]
  exact hnames _ _

/-! ## Values -/

theorem isLine_of_forall {value : Text}
    (hunits : ∀ unit ∈ value, isBlank unit = false ∧ unit ≠ newline) :
    IsLine value := by
  have hholds : Holds (fun _ => true) { name := [], value } :=
    holds_of_forall hunits
  exact (holds_iff_isLine rfl).mp hholds

theorem plain_of_mem_toString {number : Nat} {unit : UInt16}
    (hunit : unit ∈ text (toString number)) :
    isBlank unit = false ∧ unit ≠ newline := by
  have hdigit := (digit_of_mem_text_toString hunit).1
  rw [UInt16.le_iff_toNat_le] at hdigit
  have hsmall : ∀ other : UInt16, other.toNat < 48 → unit ≠ other := by
    intro other hother hsame
    rw [hsame] at hdigit
    exact absurd hdigit (Nat.not_le.mpr hother)
  have hspace := hsmall 32 (by decide)
  have htab := hsmall 9 (by decide)
  refine ⟨?_, hsmall newline (by decide)⟩
  simp [isBlank, hspace, htab]

theorem isLine_toString (number : Nat) : IsLine (text (toString number)) := by
  apply isLine_of_forall
  intro unit hunit
  exact plain_of_mem_toString hunit

theorem isLine_semantic (version : AppVersion) :
    IsLine version.semantic := by
  apply isLine_of_forall
  intro unit hunit
  have hdot : text "." = [46] := by decide
  simp only [AppVersion.semantic, hdot, List.mem_append,
    List.mem_singleton] at hunit
  rcases hunit with (((hmajor | rfl) | hminor) | rfl) | hpatch
  · exact plain_of_mem_toString hmajor
  · decide
  · exact plain_of_mem_toString hminor
  · decide
  · exact plain_of_mem_toString hpatch

theorem isLine_debian (arch : TargetArch) : IsLine arch.debian := by
  cases arch <;> decide

/-! ## Which values a field holds -/

theorem DebBundler.holds_simple {name : Text} (value : Text)
    (hname : DebBundler.isSimple name = true) :
    Holds DebBundler.isSimple { name, value } ↔ IsLine value :=
  holds_iff_isLine hname

theorem DebBundler.holds_folded {name : Text} (value : Text)
    (hname : DebBundler.isSimple name = false) :
    Holds DebBundler.isSimple { name, value } ↔ Folded value :=
  holds_iff_folded hname

theorem DebBundler.holds_homepage :
    (∀ field ∈ (homepage.map fun page => (text "Homepage", page)).toList,
        Holds DebBundler.isSimple { name := field.1, value := field.2 }) ↔
      ∀ page, homepage = some page → IsLine page := by
  have hname : DebBundler.isSimple (text "Homepage") = true := by decide
  cases homepage with
  | none => simp
  | some page => simp [holds_simple page hname]

theorem DebBundler.holds_depends :
    (∀ field ∈ (if depends.isEmpty then []
      else [(text "Depends", Updater.join (text ", ") depends)]),
        Holds DebBundler.isSimple { name := field.1, value := field.2 }) ↔
      (depends ≠ [] → Folded (Updater.join (text ", ") depends)) := by
  have hname : DebBundler.isSimple (text "Depends") = false := by decide
  cases depends with
  | nil => simp
  | cons first rest => simp [holds_folded _ hname]

theorem DebBundler.isSimple_of_mem :
    ∀ name ∈ [text "Package", text "Version", text "Architecture",
      text "Installed-Size", text "Maintainer", text "Section",
      text "Priority"], DebBundler.isSimple name = true := by
  decide

end

end Dovetail.Bundler
