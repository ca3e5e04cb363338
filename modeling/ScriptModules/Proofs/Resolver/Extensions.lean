import ScriptModules.Proofs.Cache.EntryFile
import ScriptModules.Proofs.Files.Spelling
import ScriptModules.Resolver

/-!
# Extensions of compiled files

An extension is used in two ways.  A file is looked for by putting extensions after a path as they
are (`Resolver.file?`), and a file is taken for a compiled one by what stands after the last point
of its name (`Config.isBinary`), which is compared with the binary extensions without the points at
their front.

The two agree on an extension with points at its front only.  One that has a point further in is
not recognized in the names that end in it: they are taken for names of compiled files just if what
stands after that point is a binary extension, too (`Resolver.classifiesProbed`).
-/

namespace ScriptModules

/-! ## Encoded texts -/

/-- A byte below 128 is the whole encoding of a character, and no part of a longer one. -/
theorem toNat_of_mem_utf8EncodeChar {c : Char} {byte : UInt8}
    (h : byte ∈ String.utf8EncodeChar c) (hlow : byte.toNat < 128) : c.toNat = byte.toNat := by
  have hcode : c.val.toNat = c.toNat := rfl
  simp only [String.utf8EncodeChar, hcode] at h
  split at h
  · rename_i hascii
    rw [List.mem_singleton.mp h, UInt8.toNat_ofNat']
    omega
  · have hhigh : 128 ≤ byte.toNat := by
      split at h
      · simp only [List.mem_cons, List.not_mem_nil, or_false] at h
        rcases h with rfl | rfl <;> rw [UInt8.toNat_ofNat'] <;> omega
      · split at h
        · simp only [List.mem_cons, List.not_mem_nil, or_false] at h
          rcases h with rfl | rfl | rfl <;> rw [UInt8.toNat_ofNat'] <;> omega
        · simp only [List.mem_cons, List.not_mem_nil, or_false] at h
          rcases h with rfl | rfl | rfl | rfl <;> rw [UInt8.toNat_ofNat'] <;> omega
    omega

/-- A text without slashes is encoded without slashes. -/
theorem slash_notMem_ofText {text : String} (h : '/' ∉ text.toList) :
    Path.slash ∉ Bytes.ofText text := by
  rw [← String.ofList_toList (s := text), Bytes.ofText_ofList, List.mem_flatMap]
  rintro ⟨c, hc, hslash⟩
  have hcode : c.toNat = '/'.toNat := toNat_of_mem_utf8EncodeChar hslash (by decide)
  rw [Char.toNat_inj.mp hcode] at hc
  exact h hc

/-! ## The last piece of a path -/

namespace Path

variable {path : Path} {name stem suffix before after : Bytes}

/-- What comes last in the spelling of a path is its last component, if it is one. -/
theorem getLast?_components {pieces : List Bytes} {last : Bytes} {component : Component}
    (h : split path.bytes = pieces ++ [last]) (hlast : component? last = some component) :
    path.components.getLast? = some component := by
  have hrest : (split path.bytes).filterMap component? =
      pieces.filterMap component? ++ [component] := by
    rw [h, List.filterMap_append, List.filterMap_cons_some hlast, List.filterMap_nil]
  unfold components
  simp only [hrest]
  split
  · rw [← List.cons_append, List.getLast?_concat]
  · split
    · rw [← List.cons_append, List.getLast?_concat]
    · rw [List.getLast?_concat]

/-- The last name of a path to a name in a directory is this name, unless it leads up. -/
theorem fileName?_join (directory : Path) (hslash : slash ∉ name) (hidle : isIdle name = false) :
    (directory.join ⟨name⟩).fileName? = if name = [point, point] then none else some name := by
  have hrelative : (⟨name⟩ : Path).isAbsolute = false := by
    rw [isAbsolute, beq_eq_false_iff_ne]
    exact fun hhead => hslash (List.mem_of_mem_head? hhead)
  have hpieces : ∃ pieces, split (directory.join ⟨name⟩).bytes = pieces ++ [name] := by
    rcases FileSystem.bytes_join directory hrelative with ⟨-, heq⟩ | ⟨above, -, heq⟩
    · exact ⟨[], by rw [heq, split_of_slash_notMem hslash]; rfl⟩
    · exact ⟨split above, by rw [heq, split_append_slash, split_of_slash_notMem hslash]⟩
  obtain ⟨pieces, hsplit⟩ := hpieces
  have hlast : component? name =
      some (if name = [point, point] then .parent else .normal name) := by
    rw [component?, hidle, if_neg Bool.false_ne_true]
    split <;> rfl
  rw [fileName?, getLast?_components hsplit hlast]
  by_cases hparent : name = [point, point]
  · rw [if_pos hparent, if_pos hparent]
  · rw [if_neg hparent, if_neg hparent]

/-! ## Points -/

/-- What stands after the last point. -/
def afterLastPoint (bytes : Bytes) : Bytes :=
  (bytes.reverse.takeWhile (· != point)).reverse

/-- What stands after the points at the front. -/
def afterFirstPoints (bytes : Bytes) : Bytes :=
  bytes.dropWhile (· == point)

theorem takeWhile_of_point_notMem (h : point ∉ after) :
    (before ++ point :: after).reverse.takeWhile (· != point) = after.reverse := by
  have hplain : ∀ byte ∈ after.reverse, (byte != point) = true := by
    intro byte hbyte
    exact bne_iff_ne.mpr fun heq => h (heq ▸ List.mem_reverse.mp hbyte)
  have hreverse : (before ++ point :: after).reverse = after.reverse ++ point :: before.reverse := by
    simp
  rw [hreverse, List.takeWhile_append_of_pos hplain, List.takeWhile_cons_of_neg (by simp),
    List.append_nil]

theorem afterLastPoint_append (h : point ∉ after) :
    afterLastPoint (before ++ point :: after) = after := by
  rw [afterLastPoint, takeWhile_of_point_notMem h, List.reverse_reverse]

/-- A byte string with points comes apart at the last one. -/
theorem exists_eq_append_afterLastPoint (h : point ∈ suffix) :
    ∃ before, suffix = before ++ point :: afterLastPoint suffix ∧
      point ∉ afterLastPoint suffix := by
  obtain ⟨after, before, hreverse, hafter⟩ :=
    List.eq_append_cons_of_mem (List.mem_reverse.mpr h)
  have hsuffix : suffix = before.reverse ++ point :: after.reverse := by
    rw [← List.reverse_reverse suffix, hreverse]
    simp
  have hlast : afterLastPoint suffix = after.reverse := by
    rw [hsuffix]
    exact afterLastPoint_append (mt List.mem_reverse.mp hafter)
  rw [hlast]
  exact ⟨before.reverse, hsuffix, mt List.mem_reverse.mp hafter⟩

/-- What stands after the last point of a name is its extension, unless the name begins there. -/
theorem extensionOfName?_point (hbefore : before ≠ []) (h : point ∉ after) :
    extensionOfName? (before ++ point :: after) = some after := by
  have hlength : 0 < before.length := List.length_pos_iff.mpr hbefore
  unfold extensionOfName?
  simp only [takeWhile_of_point_notMem h, List.reverse_reverse]
  rw [if_neg]
  simp only [List.length_drop, List.length_reverse, List.length_append, List.length_cons]
  omega

/-- The extension of a name that ends in a suffix with points comes from the suffix. -/
theorem extensionOfName?_append (hstem : stem ≠ []) (h : point ∈ suffix) :
    extensionOfName? (stem ++ suffix) = some (afterLastPoint suffix) := by
  obtain ⟨before, hsuffix, hafter⟩ := exists_eq_append_afterLastPoint h
  have hname : stem ++ suffix = (stem ++ before) ++ point :: afterLastPoint suffix := by
    rw [List.append_assoc, ← hsuffix]
  rw [hname]
  exact extensionOfName?_point (fun hnil => hstem (List.append_eq_nil_iff.mp hnil).1) hafter

/-- Where points are at the front only, the last of them is the one before the rest. -/
theorem afterLastPoint_eq (hhead : suffix.head? = some point)
    (h : point ∉ afterFirstPoints suffix) : afterLastPoint suffix = afterFirstPoints suffix := by
  have hne : suffix.takeWhile (· == point) ≠ [] := by
    obtain ⟨rest, rfl⟩ := List.head?_eq_some_iff.mp hhead
    simp
  have hall : ∀ byte ∈ suffix.takeWhile (· == point), (byte == point) = true :=
    List.all_eq_true.mp List.all_takeWhile
  have hpoint : (suffix.takeWhile (· == point)).getLast hne = point :=
    beq_iff_eq.mp (hall _ (List.getLast_mem hne))
  have hsuffix : suffix = (suffix.takeWhile (· == point)).dropLast ++
      point :: afterFirstPoints suffix := by
    have hpoints := List.dropLast_concat_getLast hne
    rw [hpoint] at hpoints
    rw [List.append_cons, hpoints]
    exact List.takeWhile_append_dropWhile.symm
  calc afterLastPoint suffix
      = afterLastPoint ((suffix.takeWhile (· == point)).dropLast ++
          point :: afterFirstPoints suffix) := congrArg _ hsuffix
    _ = afterFirstPoints suffix := afterLastPoint_append h

end Path

/-! ## Names of compiled files -/

open ScriptModules.Path (point slash afterLastPoint afterFirstPoints)

variable {config : Config} {extension : String} {stem : Name}

theorem Config.head?_of_hasPoint (h : hasPoint extension = true) :
    (Bytes.ofText extension).head? = some point := by
  obtain ⟨rest, hrest⟩ := List.head?_eq_some_iff.mp (beq_iff_eq.mp h)
  have hencoded : String.utf8EncodeChar '.' = [point] := by decide
  rw [← String.ofList_toList (s := extension), hrest, Bytes.ofText_ofList, List.flatMap_cons,
    hencoded]
  rfl

/-- The extensions of a valid configuration are written with their points. -/
theorem Config.hasPoint_of_valid (hvalid : config.fault? = none)
    (h : extension ∈ config.binaryExtensions) : hasPoint extension = true := by
  unfold fault? at hvalid
  split at hvalid
  · cases hvalid
  · rename_i hnone
    simpa using List.find?_eq_none.mp hnone extension (List.mem_append_right _ h)

/-- What stands after the last point of an extension is a binary extension, as names of files are
compared with these. -/
def Config.HasLastPart (config : Config) (extension : String) : Prop :=
  ∃ other ∈ config.binaryExtensions,
    afterFirstPoints (Bytes.ofText other) = afterLastPoint (Bytes.ofText extension)

instance (config : Config) (extension : String) : Decidable (config.HasLastPart extension) :=
  inferInstanceAs (Decidable (∃ other ∈ config.binaryExtensions, _))

/-- An extension with points at its front only stands for itself. -/
theorem Config.hasLastPart (hvalid : config.fault? = none)
    (h : extension ∈ config.binaryExtensions)
    (hfront : point ∉ afterFirstPoints (Bytes.ofText extension)) : config.HasLastPart extension :=
  ⟨extension, h,
    (Path.afterLastPoint_eq (head?_of_hasPoint (hasPoint_of_valid hvalid h)) hfront).symm⟩

theorem Config.isBinary_iff {path : Path} {name : Name} (hname : path.extension? = some name) :
    config.isBinary path = true ↔
      ∃ other ∈ config.binaryExtensions, afterFirstPoints (Bytes.ofText other) = name := by
  rw [isBinary, hname, Option.any_some, List.any_eq_true]
  simp only [beq_iff_eq, afterFirstPoints]

/-- The name that an extension makes of the last name of a path. -/
theorem Path.fileName?_append (directory : Path) (hhead : (Bytes.ofText extension).head? = some point)
    (hslash : '/' ∉ extension.toList) (hne : stem ≠ []) (hstem : slash ∉ stem) :
    ((directory.join ⟨stem⟩).append extension).fileName? =
      if stem ++ Bytes.ofText extension = [point, point] then none
      else some (stem ++ Bytes.ofText extension) := by
  have hrelative : (⟨stem⟩ : Path).isAbsolute = false := by
    rw [Path.isAbsolute, beq_eq_false_iff_ne]
    exact fun hfirst => hstem (List.mem_of_mem_head? hfirst)
  have hplain : slash ∉ stem ++ Bytes.ofText extension := by
    rw [List.mem_append]
    exact fun hmem => hmem.elim hstem (slash_notMem_ofText hslash)
  -- The name has a byte of the stem and the point, so it is neither empty nor a single point.
  have hidle : Path.isIdle (stem ++ Bytes.ofText extension) = false := by
    obtain ⟨rest, hrest⟩ := List.head?_eq_some_iff.mp hhead
    obtain ⟨first, more, rfl⟩ := List.exists_cons_of_ne_nil hne
    rw [hrest]
    simp [Path.isIdle]
  rw [Path.append_join directory hrelative (slash_notMem_ofText hslash)]
  exact Path.fileName?_join directory hplain hidle

/-- A name that ends in a binary extension is that of a compiled file just if the last part of the
extension is known, and the name is none that leads up. -/
theorem Config.isBinary_append_iff (hvalid : config.fault? = none)
    (h : extension ∈ config.binaryExtensions) (hslash : '/' ∉ extension.toList) (directory : Path)
    (hne : stem ≠ []) (hstem : slash ∉ stem) :
    config.isBinary ((directory.join ⟨stem⟩).append extension) = true ↔
      stem ++ Bytes.ofText extension ≠ [point, point] ∧ config.HasLastPart extension := by
  have hhead := head?_of_hasPoint (hasPoint_of_valid hvalid h)
  have hname := Path.fileName?_append directory hhead hslash hne hstem
  by_cases hparent : stem ++ Bytes.ofText extension = [point, point]
  · rw [if_pos hparent] at hname
    have hnone : ((directory.join ⟨stem⟩).append extension).extension? = none := by
      rw [Path.extension?, hname]
      rfl
    rw [isBinary, hnone, Option.any_none]
    simp [hparent]
  · rw [if_neg hparent] at hname
    have hlast : ((directory.join ⟨stem⟩).append extension).extension? =
        some (afterLastPoint (Bytes.ofText extension)) := by
      rw [Path.extension?, hname]
      exact Path.extensionOfName?_append hne (List.mem_of_mem_head? hhead)
    rw [isBinary_iff hlast, and_iff_right hparent]
    rfl

namespace Resolver

/-- How the names are classified that come of putting a binary extension after the path of a name
in a directory. -/
structure ClassifiesProbed (config : Config) (extension : String) : Prop where
  /-- All of them are names of compiled files, or none is.  The name `..` is that of no file. -/
  isBinary (directory : Path) {stem : Name} (hne : stem ≠ []) (hstem : slash ∉ stem) :
    config.isBinary ((directory.join ⟨stem⟩).append extension) = true ↔
      stem ++ Bytes.ofText extension ≠ [point, point] ∧ config.HasLastPart extension
  /-- Their format is that of a compiled file in the same cases. -/
  format (directory : Path) {stem : Name} (hne : stem ≠ []) (hstem : slash ∉ stem) :
    formatOf config ((directory.join ⟨stem⟩).append extension) = .binary ↔
      stem ++ Bytes.ofText extension ≠ [point, point] ∧ config.HasLastPart extension
  /-- An extension that has points at its front only is known by itself. -/
  plain (hfront : point ∉ afterFirstPoints (Bytes.ofText extension)) : config.HasLastPart extension

theorem formatOf_eq_binary_iff {path : Path} :
    formatOf config path = .binary ↔ config.isBinary path = true := by
  rw [formatOf]
  split <;> simp_all

/-- What a binary extension of a valid configuration is put after is classified by the part of it
after its last point. -/
theorem classifiesProbed (hvalid : config.fault? = none) (h : extension ∈ config.binaryExtensions)
    (hslash : '/' ∉ extension.toList) : ClassifiesProbed config extension where
  isBinary directory _ hne hstem :=
    Config.isBinary_append_iff hvalid h hslash directory hne hstem
  format directory _ hne hstem :=
    formatOf_eq_binary_iff.trans (Config.isBinary_append_iff hvalid h hslash directory hne hstem)
  plain := Config.hasLastPart hvalid h

/-! ## An extension with a point inside -/

/-- Two binary extensions, one of which has a second point. -/
def preCompiled : Config := { binaryExtensions := [".pre.bin", ".jsc"] }

/-- The extension with one point is known, also after a stem with points, and the other one is not. -/
theorem classifiesProbed_preCompiled :
    preCompiled.fault? = none ∧
      formatOf preCompiled ((Path.join (.ofString "/p") ⟨Bytes.ofText "a.b"⟩).append ".jsc") =
        .binary ∧
      formatOf preCompiled ((Path.join (.ofString "/p") ⟨Bytes.ofText "a"⟩).append ".pre.bin") ≠
        .binary := by
  have hvalid : preCompiled.fault? = none := by decide
  have hone : ClassifiesProbed preCompiled ".jsc" := classifiesProbed hvalid (by decide) (by decide)
  have htwo : ClassifiesProbed preCompiled ".pre.bin" :=
    classifiesProbed hvalid (by decide) (by decide)
  refine ⟨hvalid, ?_, ?_⟩
  · exact (hone.format _ (by decide) (by decide)).mpr ⟨by decide, hone.plain (by decide)⟩
  · intro hbinary
    have hknown := ((htwo.format _ (by decide) (by decide)).mp hbinary).2
    exact absurd hknown (by decide)

/-- Not every file that is found by a binary extension is taken for a compiled one. -/
theorem not_recognizesProbed : ¬ ∀ (config : Config) (extension : String),
    config.fault? = none → extension ∈ config.binaryExtensions → '/' ∉ extension.toList →
    ∀ (directory : Path) (stem : Name), stem ≠ [] → slash ∉ stem →
      stem ++ Bytes.ofText extension ≠ [point, point] →
      config.isBinary ((directory.join ⟨stem⟩).append extension) = true ∧
        formatOf config ((directory.join ⟨stem⟩).append extension) = .binary := by
  intro hall
  have hclaim := hall preCompiled ".pre.bin" (by decide) (by decide) (by decide) (.ofString "/p")
    (Bytes.ofText "a") (by decide) (by decide) (by decide)
  have hbinary : preCompiled.isBinary
      ((Path.join (.ofString "/p") ⟨Bytes.ofText "a"⟩).append ".pre.bin") = false := by decide +kernel
  rw [hbinary] at hclaim
  exact Bool.false_ne_true hclaim.1

end Resolver

end ScriptModules
