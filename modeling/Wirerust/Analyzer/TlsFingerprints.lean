import Wirerust.Analyzer.Tls
import Wirerust.Lib.Joined

/-!
What a JA3 string says about a `ClientHello` (`compute_ja3` of `analyzer/tls.rs`).

The string is five lists of numbers in decimal. GREASE values that are put into the hello or taken
out of it leave it as it is (`ja3String_greased`), and it determines everything else that went
into it (`ja3String_inj`).
-/

namespace Wirerust.Tls

open Lib Wirerust.Analyzer

/-! ## The five fields -/

def withoutGrease (values : List UInt16) : List UInt16 := values.filter fun v => !isGreaseU16 v

/-- The numbers of a field. -/
def numbers (values : List UInt16) : List Nat := values.map UInt16.toNat

theorem numbers_inj {values others : List UInt16} :
    numbers values = numbers others ↔ values = others :=
  (List.map_injective_iff.mpr fun _ _ => UInt16.toNat_inj.mp).eq_iff

theorem greaseFree_eq (values : List UInt16) :
    greaseFree values = decimals '-' (numbers (withoutGrease values)) := by
  rw [greaseFree, decimals, numbers, List.map_map]
  rfl

def formatNumbers (exts : List TlsExtension) : List Nat := (pointFormats exts).map UInt8.toNat

/-- The fields after the version, as lists of numbers. -/
def listFields (ciphers : List UInt16) (exts : List TlsExtension) : List (List Nat) :=
  [numbers (withoutGrease ciphers), numbers (withoutGrease (exts.map TlsExtension.typeId)),
    numbers (withoutGrease (curves exts)), formatNumbers exts]

theorem ja3String_eq (version : UInt16) (ciphers : List UInt16) (exts : List TlsExtension) :
    ja3String version ciphers exts = joined ','
      (toString version.toNat :: (listFields ciphers exts).map (decimals '-')) := by
  have hformats : "-".intercalate ((pointFormats exts).map toString) =
      decimals '-' (formatNumbers exts) := by
    rw [decimals, formatNumbers, List.map_map]
    rfl
  rw [ja3String, greaseFree_eq, greaseFree_eq, greaseFree_eq, hformats]
  rfl

theorem free_field (version : UInt16) (fields : List (List Nat)) :
    ∀ s ∈ toString version.toNat :: fields.map (decimals '-'), Free ',' s := by
  intro s hs
  rcases List.mem_cons.mp hs with rfl | hs
  · exact free_toString (by decide) version.toNat
  · obtain ⟨ns, -, rfl⟩ := List.mem_map.mp hs
    exact free_decimals (by decide) (by decide) ns

/-! ## What the string determines -/

/-- Two hellos with the same string differ in GREASE values only, and in how their groups and
point formats are spread over extensions. -/
theorem ja3String_inj (version version' : UInt16) (ciphers ciphers' : List UInt16)
    (exts exts' : List TlsExtension) :
    ja3String version ciphers exts = ja3String version' ciphers' exts' ↔
      version = version' ∧ withoutGrease ciphers = withoutGrease ciphers' ∧
      withoutGrease (exts.map TlsExtension.typeId) =
        withoutGrease (exts'.map TlsExtension.typeId) ∧
      withoutGrease (curves exts) = withoutGrease (curves exts') ∧
      pointFormats exts = pointFormats exts' := by
  have hdecimals : Function.Injective (decimals '-') := fun _ _ => (decimals_inj (by decide)).mp
  have hformats : formatNumbers exts = formatNumbers exts' ↔
      pointFormats exts = pointFormats exts' :=
    (List.map_injective_iff.mpr fun _ _ => UInt8.toNat_inj.mp).eq_iff
  rw [ja3String_eq, ja3String_eq, joined_inj (free_field _ _) (free_field _ _)
    (List.cons_ne_nil _ _) (List.cons_ne_nil _ _), List.cons.injEq, toString_injective.eq_iff,
    UInt16.toNat_inj, (List.map_injective_iff.mpr hdecimals).eq_iff]
  simp only [listFields, List.cons.injEq, numbers_inj, hformats, and_true]

/-! ## GREASE values put in -/

/-- `more` is `values` with GREASE values put in anywhere. -/
inductive Greased : List UInt16 → List UInt16 → Prop
  | nil : Greased [] []
  | keep {values more : List UInt16} (v : UInt16) :
    Greased values more → Greased (v :: values) (v :: more)
  | insert {values more : List UInt16} {v : UInt16} :
    isGreaseU16 v = true → Greased values more → Greased values (v :: more)

/-- `TlsExtension::Grease`. -/
def greaseExtension (v : UInt16) : TlsExtension := ⟨v, .other⟩

/-- `more` is `exts` with GREASE extensions put in anywhere, and GREASE groups put into its lists
of groups. -/
inductive GreasedExts : List TlsExtension → List TlsExtension → Prop
  | nil : GreasedExts [] []
  | keep {exts more : List TlsExtension} (e : TlsExtension) :
    GreasedExts exts more → GreasedExts (e :: exts) (e :: more)
  | groups {exts more : List TlsExtension} {groups moreGroups : List UInt16} (typeId : UInt16) :
    Greased groups moreGroups → GreasedExts exts more →
    GreasedExts (⟨typeId, .ellipticCurves groups⟩ :: exts)
      (⟨typeId, .ellipticCurves moreGroups⟩ :: more)
  | insert {exts more : List TlsExtension} {v : UInt16} :
    isGreaseU16 v = true → GreasedExts exts more → GreasedExts exts (greaseExtension v :: more)

theorem Greased.withoutGrease {values more : List UInt16} (h : Greased values more) :
    withoutGrease more = withoutGrease values := by
  unfold Tls.withoutGrease
  induction h with
  | nil => rfl
  | keep v _ ih => rw [List.filter_cons, List.filter_cons, ih]
  | insert hv _ ih => rw [List.filter_cons_of_neg (by simp [hv]), ih]

theorem GreasedExts.types {exts more : List TlsExtension} (h : GreasedExts exts more) :
    Greased (exts.map TlsExtension.typeId) (more.map TlsExtension.typeId) := by
  induction h with
  | nil => exact .nil
  | keep e _ ih => exact .keep e.typeId ih
  | groups typeId _ _ ih => exact .keep typeId ih
  | insert hv _ ih => exact .insert hv ih

theorem Greased.refl (values : List UInt16) : Greased values values := by
  induction values with
  | nil => exact .nil
  | cons v values ih => exact .keep v ih

theorem Greased.append {values more values' more' : List UInt16} (h : Greased values more)
    (h' : Greased values' more') : Greased (values ++ values') (more ++ more') := by
  induction h with
  | nil => exact h'
  | keep v _ ih => exact .keep v ih
  | insert hv _ ih => exact .insert hv ih

theorem GreasedExts.curves {exts more : List TlsExtension} (h : GreasedExts exts more) :
    Greased (curves exts) (curves more) := by
  unfold Tls.curves
  induction h with
  | nil => exact .nil
  | keep e _ ih =>
    rw [List.flatMap_cons, List.flatMap_cons]
    exact (Greased.refl _).append ih
  | groups typeId hgroups _ ih => exact hgroups.append ih
  | insert _ _ ih => exact ih

theorem GreasedExts.pointFormats {exts more : List TlsExtension} (h : GreasedExts exts more) :
    pointFormats more = pointFormats exts := by
  unfold Tls.pointFormats
  induction h with
  | nil => rfl
  | keep e _ ih => rw [List.flatMap_cons, List.flatMap_cons, ih]
  | groups typeId _ _ ih => exact ih
  | insert _ _ ih => exact ih

theorem ja3String_greased {ciphers moreCiphers : List UInt16} {exts moreExts : List TlsExtension}
    (version : UInt16) (hciphers : Greased ciphers moreCiphers)
    (hexts : GreasedExts exts moreExts) :
    ja3String version moreCiphers moreExts = ja3String version ciphers exts := by
  rw [ja3String_inj]
  exact ⟨rfl, hciphers.withoutGrease, hexts.types.withoutGrease, hexts.curves.withoutGrease,
    hexts.pointFormats⟩

/-- GREASE values put into a hello or taken out of it leave the string as it is; otherwise the
string determines the version and the four lists. -/
theorem computeJa3_string (lib : TlsParser) :
    (∀ (version : UInt16) (ciphers moreCiphers : List UInt16) (exts moreExts : List TlsExtension),
      Greased ciphers moreCiphers → GreasedExts exts moreExts →
      (computeJa3 lib version moreCiphers moreExts).2 = (computeJa3 lib version ciphers exts).2) ∧
    (∀ (version version' : UInt16) (ciphers ciphers' : List UInt16)
      (exts exts' : List TlsExtension),
      (computeJa3 lib version ciphers exts).2 = (computeJa3 lib version' ciphers' exts').2 ↔
        version = version' ∧ withoutGrease ciphers = withoutGrease ciphers' ∧
        withoutGrease (exts.map TlsExtension.typeId) =
          withoutGrease (exts'.map TlsExtension.typeId) ∧
        withoutGrease (curves exts) = withoutGrease (curves exts') ∧
        pointFormats exts = pointFormats exts') := by
  constructor
  · intro version ciphers moreCiphers exts moreExts hciphers hexts
    exact ja3String_greased version hciphers hexts
  · intro version version' ciphers ciphers' exts exts'
    exact ja3String_inj version version' ciphers ciphers' exts exts'

/-- The string does not go through the parser. -/
def emptyParser : TlsParser := ⟨fun _ => none, fun _ => none, fun _ => none, id⟩

/-- A GREASE cipher, a GREASE extension and a GREASE group. -/
theorem computeJa3_string_greased :
    (computeJa3 emptyParser 771 [0x1301, 0x5a5a] [greaseExtension 0xfafa,
        ⟨10, .ellipticCurves [0x2a2a, 29]⟩]).2 =
      (computeJa3 emptyParser 771 [0x1301] [⟨10, .ellipticCurves [29]⟩]).2 :=
  (computeJa3_string emptyParser).1 771 _ _ _ _
    (.keep 0x1301 (.insert (by decide) .nil))
    (.insert (by decide) (.groups 10 (.insert (by decide) (.keep 29 .nil)) .nil))

end Wirerust.Tls
