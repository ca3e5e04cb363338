import ScriptModules.Proofs.Cache.Keeping
import ScriptModules.Proofs.Cache.Recall
import ScriptModules.Proofs.Cache.OpeningOrder
import ScriptModules.Proofs.Files.Shelf
import ScriptModules.Proofs.Files.Tree

/-!
# What clearing a cache takes away

A cache is cleared by what its directory holds, not by what the cache knows of it.  Whatever is
named by 64 digits and the ending of entries is taken away, whoever wrote it and in either case of
the digits, unless it is a directory (`IsEntry`).  Nothing else goes.  The index is written anew,
without entries, where it can be written.

An entry is taken away by its path, so the path must lead to it when its turn comes.  It may not:
a link that is named like an entry counts as one, and if the path of the directory goes through
two such links then the first that goes takes the way to the other along.  A path may also be too
long with the name of an entry at its end.  What is left behind for such a reason has no path any
more, and the cache does not find it either.  Otherwise nothing is left behind (`IsOpen`).

The loop is told by what is gone when it is done (`Deletes`); the induction is on the names.
-/

namespace ScriptModules

/-! ## Digits of either case -/

/-- A text is read from its own bytes only. -/
theorem Bytes.of_text?_eq_some {bytes : Bytes} {text : String} (h : text? bytes = some text) :
    bytes = ofText text := by
  unfold text? String.fromUTF8? at h
  split at h
  · cases h
    rfl
  · cases h

/-- A digit is one byte, and no separator. -/
theorem Text.utf8EncodeChar_of_isHexDigit {digit : Char} (h : isHexDigit digit = true) :
    ∃ byte : UInt8, String.utf8EncodeChar digit = [byte] ∧ byte ≠ 0 ∧ byte ≠ Path.slash := by
  have all : ∀ n ∈ List.range 128, isHexDigit (Char.ofNat n) = true →
      ∃ byte ∈ String.utf8EncodeChar (Char.ofNat n),
        String.utf8EncodeChar (Char.ofNat n) = [byte] ∧ byte ≠ 0 ∧ byte ≠ Path.slash := by
    decide +kernel
  have hsmall : digit.toNat < 128 := by
    simp only [isHexDigit, Char.isDigit, Bool.or_eq_true, Bool.and_eq_true, decide_eq_true_eq,
      Char.le_def, UInt32.le_iff_toNat_le] at h
    show digit.val.toNat < 128
    rcases h with (⟨-, h⟩ | ⟨-, h⟩) | ⟨-, h⟩
    · exact Nat.lt_of_le_of_lt h (by decide)
    · exact Nat.lt_of_le_of_lt h (by decide)
    · exact Nat.lt_of_le_of_lt h (by decide)
  rw [← Char.ofNat_toNat digit] at h ⊢
  obtain ⟨byte, -, hbyte⟩ := all digit.toNat (List.mem_range.mpr hsmall) h
  exact ⟨byte, hbyte⟩

/-- Digits are as many bytes, none of them a separator. -/
theorem Bytes.ofText_hexDigits {digits : List Char}
    (h : ∀ digit ∈ digits, Text.isHexDigit digit = true) :
    (ofText (String.ofList digits)).length = digits.length ∧
      ∀ byte ∈ ofText (String.ofList digits), byte ≠ 0 ∧ byte ≠ Path.slash := by
  rw [ofText_ofList]
  induction digits with
  | nil => exact ⟨rfl, fun _ hnever => absurd hnever List.not_mem_nil⟩
  | cons digit digits ih =>
      obtain ⟨hdigit, hrest⟩ := List.forall_mem_cons.mp h
      obtain ⟨byte, hbyte, hplain⟩ := Text.utf8EncodeChar_of_isHexDigit hdigit
      obtain ⟨hlength, hall⟩ := ih hrest
      rw [List.flatMap_cons, hbyte, List.singleton_append]
      refine ⟨by rw [List.length_cons, List.length_cons, hlength], ?_⟩
      exact List.forall_mem_cons.mpr ⟨hplain, hall⟩

namespace Digest

/-- What is read as bytes is digits, two for each. -/
theorem of_bytesOfHex?_eq_some {digits : List Char} {bytes : Bytes}
    (h : bytesOfHex? digits = some bytes) :
    digits.length = 2 * bytes.length ∧ ∀ digit ∈ digits, Text.isHexDigit digit = true := by
  induction digits using bytesOfHex?.induct generalizing bytes with
  | case1 =>
      cases h
      exact ⟨rfl, fun _ hnever => absurd hnever List.not_mem_nil⟩
  | case2 digit => cases h
  | case3 high low rest hdigits ih =>
      rw [bytesOfHex?, if_pos hdigits] at h
      obtain ⟨others, hothers, rfl⟩ := Option.map_eq_some_iff.mp h
      obtain ⟨hlength, hrest⟩ := ih hothers
      obtain ⟨hhigh, hlow⟩ := (Bool.and_eq_true _ _).mp hdigits
      refine ⟨by simp only [List.length_cons, hlength]; omega, ?_⟩
      exact List.forall_mem_cons.mpr ⟨hhigh, List.forall_mem_cons.mpr ⟨hlow, hrest⟩⟩
  | case4 high low rest hdigits =>
      rw [bytesOfHex?, if_neg hdigits] at h
      cases h

/-- Digits are read as bytes if they come in pairs. -/
theorem exists_bytesOfHex? {digits : List Char} {count : Nat}
    (hlength : digits.length = 2 * count)
    (h : ∀ digit ∈ digits, Text.isHexDigit digit = true) :
    ∃ bytes, bytesOfHex? digits = some bytes ∧ bytes.length = count := by
  induction count generalizing digits with
  | zero =>
      obtain rfl := List.eq_nil_of_length_eq_zero hlength
      exact ⟨[], rfl, rfl⟩
  | succ count ih =>
      match digits, hlength, h with
      | high :: low :: rest, hlength, h =>
        obtain ⟨hhigh, h⟩ := List.forall_mem_cons.mp h
        obtain ⟨hlow, hrest⟩ := List.forall_mem_cons.mp h
        simp only [List.length_cons] at hlength
        obtain ⟨bytes, hbytes, hcount⟩ := ih (by omega) hrest
        refine ⟨UInt8.ofNat (Text.hexNumber [high, low]) :: bytes, ?_, by
          rw [List.length_cons, hcount]⟩
        rw [bytesOfHex?, hhigh, hlow, hbytes]
        rfl

end Digest

namespace FileSystem

open ScriptModules.Path (IsPiece)

variable {fs after : FileSystem} {directory : Path} {place : Location} {name : Name}
  {fresh : Location → Prop}

/-! ## Ways to the names in a directory -/

/-- A name in a directory has a path that leads to it. -/
def IsReached (fs : FileSystem) (directory : Path) (name : Name) : Prop :=
  ∃ place last, fs.target (directory.join ⟨name⟩) = .ok (.child place last)

/-- The names in a directory are names in one place, as far as paths lead to them. -/
def PointsTo (fs : FileSystem) (directory : Path) (place : Location) : Prop :=
  ∀ name, IsPiece name → ∀ there last,
    fs.target (directory.join ⟨name⟩) = .ok (.child there last) → there = place

/-- The way to a directory in the tree is the way to its names. -/
theorem pointsTo_of_find (h : fs.find directory = .ok (⟨place, 0⟩, .directory)) :
    PointsTo fs directory place := by
  intro name hname there last ht
  obtain ⟨hthere, -⟩ := (target_join_iff directory hname).mp ht
  have hsame := placeOf_unique hthere (placeOf_stepsTo h)
    (isAbsolute_join directory (isAbsolute_of_isPiece hname))
  exact congrArg Place.location hsame

/-- A change that brings no directories brings no ways. -/
theorem target_of_alters {last : Name} (ha : Alters fresh fs after)
    (hfresh : ∀ location, fresh location → after.node? location ≠ some .directory)
    (hname : IsPiece name) (ht : after.target (directory.join ⟨name⟩) = .ok (.child place last)) :
    fs.target (directory.join ⟨name⟩) = .ok (.child place last) := by
  obtain ⟨hplace, hdirectory, hrest⟩ := (target_join_iff directory hname).mp ht
  refine (target_join_iff directory hname).mpr ⟨?_, ha.directory hdirectory, hrest⟩
  rcases ha.placeOf hplace with hsame | ⟨-, hnew⟩
  · exact hsame
  · exact absurd hdirectory (hfresh place hnew)

theorem PointsTo.of_alters (h : PointsTo fs directory place)
    (ha : Alters fresh fs after)
    (hfresh : ∀ location, fresh location → after.node? location ≠ some .directory) :
    PointsTo after directory place :=
  fun name hname there last ht => h name hname there last (target_of_alters ha hfresh hname ht)

/-- What is found without the entries is found. -/
theorem find_of_alters {found : Place} (ha : Alters (fun _ => False) fs after)
    (h : after.find directory = .ok (found, .directory)) :
    fs.find directory = .ok (found, .directory) := by
  obtain ⟨hplace, hnode⟩ := placeOf_of_find h
  have hbefore : fs.placeOf true directory (stepsOf directory) = .ok found := by
    rcases ha.placeOf hplace with hsame | ⟨-, hnever⟩
    · exact hsame
    · exact hnever.elim
  have hthere : fs.nodeAt? found = some .directory := by
    by_cases hlost : 0 < found.lost
    · rw [nodeAt?, if_pos hlost]
    · rw [nodeAt?, if_neg hlost] at hnode ⊢
      exact ha.directory hnode
  simp only [find, hbefore, bind, Except.bind, hthere]

theorem null_notMem_join (hdirectory : 0 ∉ directory.bytes) (hname : IsPiece name)
    (hzero : 0 ∉ name) : 0 ∉ (directory.join ⟨name⟩).bytes := by
  rcases bytes_join directory (isAbsolute_of_isPiece hname) with
    ⟨-, heq⟩ | ⟨above, habove, heq⟩
  · rw [heq]
    exact hzero
  · have hclean : 0 ∉ above := by
      rcases habove with ⟨hsame, -⟩ | hslash
      · rwa [hsame] at hdirectory
      · rw [hslash] at hdirectory
        exact fun hmem => hdirectory (List.mem_append_left _ hmem)
    rw [heq, List.mem_append, List.mem_cons]
    rintro (hmem | hnever | hmem)
    · exact hclean hmem
    · exact absurd hnever (by decide)
    · exact hzero hmem

end FileSystem

namespace Cache

open ScriptModules.Path (IsPiece)
open FileSystem (Alters Grounded IsReached IsTree PointsTo find_of_alters null_notMem_join
  pointsTo_of_find stepsOf_join stepsTo target_join_iff target_of_alters)

/-! ## Names of entries -/

/-- 64 digits, of either case, and the ending of entries. -/
def IsEntryName (name : Name) : Prop :=
  ∃ digits : List Char, digits.length = 64 ∧ (∀ digit ∈ digits, Text.isHexDigit digit = true) ∧
    name = Bytes.ofText (String.ofList digits) ++ Bytes.ofText entrySuffix

variable {cache : Cache} {fs middle after : FileSystem} {directory : Path} {place : Location}
  {name : Name} {names gone : List Name}

/-- These are the names that are read as fingerprints. -/
theorem isSome_fingerprintOfName?_iff :
    (fingerprintOfName? name).isSome = true ↔ IsEntryName name := by
  constructor
  · intro h
    obtain ⟨fingerprint, h⟩ := Option.isSome_iff_exists.mp h
    simp only [fingerprintOfName?] at h
    split at h
    · rename_i hname
      obtain ⟨text, htext, hdigest⟩ := Option.bind_eq_some_iff.mp h
      simp only [Digest.ofHex?] at hdigest
      obtain ⟨bytes, hbytes, hrest⟩ := Option.bind_eq_some_iff.mp hdigest
      split at hrest
      · rename_i hlength
        obtain ⟨hcount, hdigits⟩ := Digest.of_bytesOfHex?_eq_some hbytes
        refine ⟨text.toList, by rw [hcount, hlength], hdigits, ?_⟩
        rw [String.ofList_toList, ← Bytes.of_text?_eq_some htext]
        exact hname.symm
      · cases hrest
    · cases h
  · rintro ⟨digits, hlength, hdigits, rfl⟩
    obtain ⟨bytes, hbytes, hcount⟩ := @Digest.exists_bytesOfHex? digits 32 hlength hdigits
    have hdigest : Digest.ofHex? (String.ofList digits) = some ⟨bytes, hcount⟩ := by
      rw [Digest.ofHex?, String.toList_ofList, hbytes]
      simp [hcount]
    simp [fingerprintOfName?, Bytes.text?_ofText, hdigest]

theorem isEntryName_nameOf (fingerprint : Fingerprint) : IsEntryName (nameOf fingerprint) := by
  rw [← isSome_fingerprintOfName?_iff, fingerprintOfName?_entryName]
  rfl

theorem IsEntryName.length_eq (h : IsEntryName name) : name.length = 68 := by
  obtain ⟨digits, hlength, hdigits, rfl⟩ := h
  rw [List.length_append, (Bytes.ofText_hexDigits hdigits).1, hlength]
  rfl

/-- The bytes of such a name separate nothing. -/
theorem IsEntryName.plain (h : IsEntryName name) :
    ∀ byte ∈ name, byte ≠ 0 ∧ byte ≠ Path.slash := by
  obtain ⟨digits, -, hdigits, rfl⟩ := h
  have hsuffix : ∀ byte ∈ Bytes.ofText entrySuffix, byte ≠ 0 ∧ byte ≠ Path.slash := by
    decide +kernel
  intro byte hmem
  rcases List.mem_append.mp hmem with hdigit | hend
  · exact (Bytes.ofText_hexDigits hdigits).2 byte hdigit
  · exact hsuffix byte hend

theorem IsEntryName.isPiece (h : IsEntryName name) : IsPiece name := by
  have hlength := h.length_eq
  refine ⟨?_, fun hmem => (h.plain _ hmem).2 rfl, ?_, ?_⟩
  · rintro rfl
    cases hlength
  · rintro rfl
    cases hlength
  · rintro rfl
    cases hlength

theorem not_isEntryName_indexFile : ¬ IsEntryName indexFile := by
  rw [← isSome_fingerprintOfName?_iff, fingerprintOfName?_indexFile]
  exact Bool.false_ne_true

/-- An entry stands in a directory: it is named like one, and is not a directory itself. -/
def IsEntry (fs : FileSystem) (place : Location) (name : Name) : Prop :=
  IsEntryName name ∧ ∃ node, fs.node? (place ++ [name]) = some node ∧ node ≠ .directory

theorem IsEntry.ne_directory (h : IsEntry fs place name) :
    fs.node? (place ++ [name]) ≠ some .directory := by
  obtain ⟨-, node, hnode, hne⟩ := h
  rw [hnode]
  exact fun heq => hne (Option.some.inj heq)

/-! ## Deleting entries one by one -/

/-- Entries that are `gone` were deleted, of those with certain names.  One that was not
deleted is not reached any more. -/
structure Deletes (directory : Path) (place : Location) (names : List Name) (fs : FileSystem)
    (gone : List Name) (after : FileSystem) : Prop where
  entries : ∀ name ∈ gone, IsEntry fs place name
  nodup : gone.Nodup
  nodes : ∀ location, after.node? location =
    if ∃ name ∈ gone, place ++ [name] <+: location then none else fs.node? location
  alters : Alters (fun _ => False) fs after
  left : ∀ name ∈ names, IsEntry fs place name → name ∉ gone → ¬ IsReached after directory name

theorem deletes_nil (fs : FileSystem) : Deletes directory place [] fs [] fs where
  entries _ hnever := absurd hnever List.not_mem_nil
  nodup := List.nodup_nil
  nodes location := by simp
  alters := ⟨fun _ _ hn => Or.inl hn, rfl, rfl⟩
  left _ hnever := absurd hnever List.not_mem_nil

/-- A name below a directory is below no other one. -/
theorem eq_of_extends {other : Name} (h : place ++ [name] <+: place ++ [other]) : name = other :=
  List.singleton_inj.mp (List.append_cancel_left (h.eq_of_length (by simp)))

/-- One entry is deleted and then others. -/
theorem Deletes.cons (hg : fs.Grounded) (hentry : IsEntry fs place name)
    (h : Deletes directory place names (fs.dropNode (place ++ [name])) gone after) :
    Deletes directory place (name :: names) fs (name :: gone) after := by
  have hne : place ++ [name] ≠ [] := by simp
  have hdrop := fun location => FileSystem.node?_dropNode fs _ location hne
  have hstill : ∀ other, IsEntry (fs.dropNode (place ++ [name])) place other →
      IsEntry fs place other ∧ other ≠ name := by
    rintro other ⟨hname, node, hnode, hdir⟩
    rw [hdrop] at hnode
    split at hnode
    · cases hnode
    · rename_i hapart
      exact ⟨⟨hname, node, hnode, hdir⟩, fun heq => hapart (heq ▸ List.prefix_refl _)⟩
  have halters := FileSystem.alters_dropNode hg hne hentry.ne_directory
  constructor
  case entries =>
    exact List.forall_mem_cons.mpr
      ⟨hentry, fun other hmem => (hstill other (h.entries other hmem)).1⟩
  case nodup =>
    exact List.nodup_cons.mpr ⟨fun hmem => (hstill name (h.entries name hmem)).2 rfl, h.nodup⟩
  case nodes =>
    intro location
    rw [h.nodes, hdrop]
    by_cases hfirst : place ++ [name] <+: location
    · simp [hfirst]
    · simp [hfirst]
  case alters =>
    refine ⟨fun location node hnode => ?_, h.alters.workingDirectory.trans halters.workingDirectory,
      h.alters.lost.trans halters.lost⟩
    rcases h.alters.nodes location node hnode with hold | ⟨hnever, -⟩
    · exact halters.nodes location node hold
    · exact hnever.elim
  case left =>
    intro other hmem hother hkept
    obtain ⟨hneq, hkept⟩ := not_or.mp (mt List.mem_cons.mpr hkept)
    have hlater : IsEntry (fs.dropNode (place ++ [name])) place other := by
      obtain ⟨hname, node, hnode, hdir⟩ := hother
      refine ⟨hname, node, ?_, hdir⟩
      rw [hdrop, if_neg fun hprefix => hneq (eq_of_extends hprefix).symm, hnode]
    exact h.left other ((List.mem_cons.mp hmem).resolve_left hneq) hlater hkept

/-- A name that cannot be deleted is passed over. -/
theorem Deletes.skip (h : Deletes directory place names fs gone after)
    (hleft : IsEntry fs place name → ¬ IsReached fs directory name) :
    Deletes directory place (name :: names) fs gone after := by
  refine ⟨h.entries, h.nodup, h.nodes, h.alters, fun other hmem hother hkept => ?_⟩
  rcases List.mem_cons.mp hmem with rfl | hmem
  · rintro ⟨there, last, ht⟩
    exact hleft hother ⟨there, last, h.alters.target_join hother.1.isPiece ht⟩
  · exact h.left other hmem hother hkept

/-- An entry whose path leads to it is removed. -/
theorem removeFile_of_isReached (hp : PointsTo fs directory place) (hentry : IsEntry fs place name)
    (hreached : IsReached fs directory name) :
    fs.removeFile (directory.join ⟨name⟩) = .ok (fs.dropNode (place ++ [name])) := by
  obtain ⟨hname, node, hnode, hdir⟩ := hentry
  obtain ⟨there, last, ht⟩ := hreached
  obtain rfl := hp name hname.isPiece there last ht
  obtain ⟨-, -, -, rfl⟩ := (target_join_iff directory hname.isPiece).mp ht
  have hlast := FileSystem.getLast?_join_name directory hname.isPiece
  simp only [FileSystem.removeFile, ht, bind, Except.bind, hnode]
  cases node with
  | directory => exact absurd rfl hdir
  | file content time => simp only [if_neg hlast]; rfl
  | link target => simp only [if_neg hlast]; rfl

/-- What is removed by the name of an entry is an entry. -/
theorem isEntry_of_removeFile (hp : PointsTo fs directory place) (hname : IsEntryName name)
    (hr : fs.removeFile (directory.join ⟨name⟩) = .ok after) :
    IsEntry fs place name ∧ after = fs.dropNode (place ++ [name]) := by
  obtain ⟨there, ht, hdir, rfl⟩ := FileSystem.removeFile_join directory hname.isPiece hr
  obtain rfl := hp name hname.isPiece there _ ht
  refine ⟨⟨hname, ?_⟩, rfl⟩
  obtain ⟨_, ht', hrest⟩ := Outcome.of_bind_eq_ok hr
  rw [ht] at ht'
  cases ht'
  cases hnode : fs.node? (there ++ [name]) with
  | none =>
      simp only [hnode] at hrest
      cases hrest
  | some node => exact ⟨node, rfl, fun heq => hdir (heq ▸ hnode)⟩

/-- The loop deletes entries and counts them.  The induction is on the names; that no path
leads to another place stays since nothing comes. -/
theorem deletes_clearNames (cache : Cache) (names : List Name) (hg : fs.Grounded)
    (hp : PointsTo fs cache.directory place) :
    ∃ gone, (cache.clearNames names fs).1 = gone.length ∧
      Deletes cache.directory place names fs gone (cache.clearNames names fs).2 := by
  induction names generalizing fs with
  | nil => exact ⟨[], rfl, deletes_nil fs⟩
  | cons name names ih =>
      unfold clearNames
      split
      · rename_i hname
        rw [isSome_fingerprintOfName?_iff] at hname
        split
        · rename_i next hremove
          obtain ⟨hentry, rfl⟩ := isEntry_of_removeFile hp hname hremove
          have hne : place ++ [name] ≠ [] := by simp
          have halters := FileSystem.alters_dropNode hg hne hentry.ne_directory
          have hadds : FileSystem.Adds (fun _ => False) fs (fs.dropNode (place ++ [name])) :=
            FileSystem.adds_dropNode hne hentry.ne_directory
          obtain ⟨gone, hcount, hdeletes⟩ := ih (hadds hg).1
            (hp.of_alters halters fun _ hnever => hnever.elim)
          exact ⟨name :: gone, congrArg (· + 1) hcount, hdeletes.cons hg hentry⟩
        · rename_i e hremove
          obtain ⟨gone, hcount, hdeletes⟩ := ih hg hp
          refine ⟨gone, hcount, hdeletes.skip fun hentry hreached => ?_⟩
          rw [removeFile_of_isReached hp hentry hreached] at hremove
          cases hremove
      · rename_i hname
        obtain ⟨gone, hcount, hdeletes⟩ := ih hg hp
        refine ⟨gone, hcount, hdeletes.skip fun hentry => ?_⟩
        exact absurd (isSome_fingerprintOfName?_iff.mpr hentry.1) hname

/-! ## Ways that need no entry -/

/-- The way to a directory goes through none of its entries, and paths of entries are not too
long. -/
structure IsOpen (cache : Cache) (fs : FileSystem) (place : Location) : Prop where
  apart : (withoutEntries fs place).find cache.directory = .ok (⟨place, 0⟩, .directory)
  short : ∀ fingerprint, (cache.entryPath fingerprint).bytes.length ≤ FileSystem.pathLimit

/-- Names that are not longer than those of entries are reached without any entry. -/
theorem IsOpen.target (h : IsOpen cache fs place) (hname : IsPiece name) (hzero : 0 ∉ name)
    (hlength : name.length ≤ 68) :
    (withoutEntries fs place).target (cache.directory.join ⟨name⟩) = .ok (.child place name) := by
  have hway := FileSystem.placeOf_stepsTo h.apart
  have hdirectory : (withoutEntries fs place).node? place = some .directory :=
    (FileSystem.placeOf_of_find h.apart).2
  obtain ⟨front, hfront⟩ := FileSystem.exists_front cache.directory
  have hbytes := hfront name hname
  refine (target_join_iff cache.directory hname).mpr ⟨?_, hdirectory, ?_, rfl⟩
  · refine FileSystem.placeOf_respell hway ?_ ?_ ?_ ?_
    · exact FileSystem.isAbsolute_join _ (FileSystem.isAbsolute_of_isPiece hname)
    · exact null_notMem_join (FileSystem.zero_notMem_of_placeOf hway) hname hzero
    · rw [hbytes]
      exact List.append_ne_nil_of_right_ne_nil _ hname.ne_nil
    · let fingerprint : Fingerprint := ⟨List.replicate 32 0, rfl⟩
      have hshort := h.short fingerprint
      have hentry := hfront _ (isPiece_entryName fingerprint)
      have hname68 := length_entryName fingerprint
      rw [show (cache.entryPath fingerprint).bytes = _ from hentry, List.length_append,
        hname68] at hshort
      rw [hbytes, List.length_append]
      omega
  · simp only [FileSystem.nameLimit]
    omega

/-- What is not an entry, nor below one, is not touched. -/
theorem Deletes.alters_part (h : Deletes directory place names fs gone after) :
    Alters (fun _ => False) after (withoutEntries fs place) := by
  refine ⟨fun location node hnode => Or.inl ?_, h.alters.workingDirectory.symm,
    h.alters.lost.symm⟩
  rw [node?_withoutEntries] at hnode
  split at hnode
  · cases hnode
  · rename_i hout
    rw [h.nodes, if_neg, hnode]
    rintro ⟨name, hmem, rest, rfl⟩
    have hentry := h.entries name hmem
    refine hout ?_
    rw [isInEntry, List.append_assoc, List.isPrefixOf_iff_prefix.mpr (List.prefix_append _ _),
      List.drop_left]
    simpa [isSome_fingerprintOfName?_iff.mpr hentry.1] using hentry.ne_directory

/-- If the way needs no entry then every entry goes. -/
theorem Deletes.complete (h : Deletes cache.directory place names fs gone after)
    (hopen : IsOpen cache fs place) (hmem : name ∈ names) (hentry : IsEntry fs place name) :
    name ∈ gone := by
  by_contra hkept
  have htarget := hopen.target hentry.1.isPiece (fun hzero => (hentry.1.plain 0 hzero).1 rfl)
    hentry.1.length_eq.le
  exact h.left name hmem hentry hkept
    ⟨place, name, h.alters_part.target_join hentry.1.isPiece htarget⟩

/-! ## Writing the index without entries -/

/-- The cache once its entries are gone. -/
def emptied (cache : Cache) : Cache :=
  { cache with entries := [], currentSize := 0, dirty := true }

/-- The contents of the index of no entries. -/
def emptyIndex : Bytes :=
  Bytes.ofText (Index.render [])

/-- The index is written if that can be done, and otherwise nothing happens. -/
theorem flush_emptied (cache : Cache) (fs : FileSystem) :
    (∃ written, fs.replaceFile cache.directory cache.indexPath emptyIndex = .ok written ∧
      (cache.emptied.flush fs).2 = ({ cache.emptied with dirty := false }, written)) ∨
    ((∀ written, fs.replaceFile cache.directory cache.indexPath emptyIndex ≠ .ok written) ∧
      (cache.emptied.flush fs).2 = (cache.emptied, fs)) := by
  have hwrite : fs.replaceFile cache.emptied.directory cache.emptied.indexPath
      (Bytes.ofText cache.emptied.index.render) =
        fs.replaceFile cache.directory cache.indexPath emptyIndex := rfl
  have hflush := cache.emptied.flushes fs
  generalize (cache.emptied.flush fs).2 = result at hflush ⊢
  cases hflush with
  | rests hrests => exact Or.inr ⟨fun written hok => hrests rfl written (hwrite.trans hok), rfl⟩
  | @writes written _ hreplace => exact Or.inl ⟨written, hwrite.symm.trans hreplace, rfl⟩

/-- Nothing changes but the index, and that becomes no directory. -/
structure Reindexes (place : Location) (fs after : FileSystem) : Prop where
  nodes : ∀ location, location ≠ place ++ [indexFile] → after.node? location = fs.node? location
  alters : Alters (fun location => location = place ++ [indexFile] ∧
    after.node? location ≠ some .directory) fs after

theorem reindexes_refl (place : Location) (fs : FileSystem) : Reindexes place fs fs :=
  ⟨fun _ _ => rfl, fun _ _ hn => Or.inl hn, rfl, rfl⟩

/-- The index is written in its place. -/
theorem reindexes_of_replaceFile {content : Bytes} (hp : PointsTo fs cache.directory place)
    (h : fs.replaceFile cache.directory cache.indexPath content = .ok after) :
    Reindexes place fs after ∧
      ∃ time, after.node? (place ++ [indexFile]) = some (.file content time) := by
  obtain ⟨there, ht, -, rfl⟩ := FileSystem.replaceFile_join cache.directory isPiece_indexFile h
  obtain rfl := hp _ isPiece_indexFile there _ ht
  have hne : there ++ [indexFile] ≠ [] := by simp
  have hnode := fun location =>
    FileSystem.node?_setNode fs.tick.2 (.file content fs.tick.1) location hne
  have hnodes : ∀ location, location ≠ there ++ [indexFile] →
      (fs.tick.2.setNode (there ++ [indexFile]) (.file content fs.tick.1)).node? location =
        fs.node? location := by
    intro location hother
    rw [hnode, if_neg hother]
    rfl
  refine ⟨⟨hnodes, fun location node hthere => ?_, rfl, rfl⟩, fs.tick.1, by rw [hnode, if_pos rfl]⟩
  by_cases hindex : location = there ++ [indexFile]
  · rw [hindex, hnode, if_pos rfl] at hthere
    obtain rfl := Option.some.inj hthere
    refine Or.inr ⟨⟨hindex, ?_⟩, _, _, rfl⟩
    rw [hindex, hnode, if_pos rfl]
    exact fun hnever => nomatch hnever
  · rw [hnodes location hindex] at hthere
    exact Or.inl hthere

/-- Where the way needs no entry, only a directory in the place of the index, or the want of a
working directory, keeps the index from being written. -/
theorem Deletes.exists_replaceFile (h : Deletes cache.directory place names fs gone after)
    (hopen : IsOpen cache fs place) (hlocated : cache.directory.isAbsolute = true ∨ fs.lost = 0)
    (hindex : fs.node? (place ++ [indexFile]) ≠ some .directory) (content : Bytes) :
    ∃ written, after.replaceFile cache.directory cache.indexPath content = .ok written := by
  have htarget : after.target cache.indexPath = .ok (.child place indexFile) :=
    h.alters_part.target_join isPiece_indexFile
      (hopen.target isPiece_indexFile (by decide +kernel) (by decide +kernel))
  have hfound := find_of_alters h.alters_part hopen.apart
  have hplace : (!cache.directory.isAbsolute && decide (0 < after.lost)) = false := by
    rw [h.alters.lost]
    rcases hlocated with habs | hzero
    · rw [habs]
      rfl
    · rw [hzero]
      exact Bool.and_false _
  have hnode : after.node? (place ++ [indexFile]) ≠ some .directory :=
    fun hdirectory => hindex (h.alters.directory hdirectory)
  simp only [FileSystem.replaceFile, hplace, hfound, FileSystem.renameNew, htarget, bind,
    Except.bind, if_neg hnode, Bool.false_eq_true, if_false]
  exact ⟨_, rfl⟩

/-! ## Clearing -/

/-- What clearing a cache does to the place of its directory, and comes to: the number of
entries deleted, the cache and the files. -/
structure Clears (cache : Cache) (fs : FileSystem) (place : Location) (gone : List Name)
    (result : Nat × Cache × FileSystem) : Prop where
  /-- Only entries are deleted. -/
  entries : ∀ name ∈ gone, IsEntry fs place name
  /-- They are counted, each once. -/
  nodup : gone.Nodup
  count : result.1 = gone.length
  absent : ∀ name ∈ gone, result.2.2.node? (place ++ [name]) = none
  /-- All entries are deleted if the way to the directory needs none of them. -/
  complete : IsOpen cache fs place → ∀ name, IsEntry fs place name → name ∈ gone
  /-- At any rate no path in the directory leads to one that is left. -/
  left : ∀ name, IsEntry fs place name → name ∉ gone →
    ¬ IsReached result.2.2 cache.directory name
  /-- Nothing else changes but the index. -/
  others : ∀ location, (∀ name ∈ gone, location ≠ place ++ [name]) →
    location ≠ place ++ [indexFile] → result.2.2.node? location = fs.node? location
  workingDirectory : result.2.2.workingDirectory = fs.workingDirectory
  lost : result.2.2.lost = fs.lost
  /-- The index holds no entries, or it cannot be written. -/
  index : (result.2.1.dirty = false ∧
      ∃ time, result.2.2.node? (place ++ [indexFile]) = some (.file emptyIndex time)) ∨
    (result.2.1.dirty = true ∧
      result.2.2.node? (place ++ [indexFile]) = fs.node? (place ++ [indexFile]) ∧
      ∀ written, result.2.2.replaceFile cache.directory cache.indexPath emptyIndex ≠ .ok written)
  /-- It can be written unless a directory stands in its place. -/
  written : IsOpen cache fs place → cache.directory.isAbsolute = true ∨ fs.lost = 0 →
    fs.node? (place ++ [indexFile]) ≠ some .directory → result.2.1.dirty = false
  /-- The cache knows of no entries. -/
  cache : result.2.1 = { cache with entries := [], currentSize := 0, dirty := result.2.1.dirty }
  /-- Nothing is found. -/
  misses : ∀ fingerprint engine, (result.2.1.lookup result.2.2 fingerprint engine).1 = none

/-- What is left behind is not found either: no path leads to it. -/
theorem lookup_eq_none_of_left {cleared : Cache} (hdirectory : cleared.directory = directory)
    (hp : PointsTo after directory place)
    (hleft : ∀ name, IsEntry after place name → ¬ IsReached after directory name)
    (fingerprint : Fingerprint) (engine : String) :
    (cleared.lookup after fingerprint engine).1 = none := by
  by_contra hsome
  obtain ⟨bytecode, hlookup⟩ := Option.ne_none_iff_exists'.mp hsome
  obtain ⟨file, hread, -⟩ := lookup_eq_some_iff.mp hlookup
  have hname := isPiece_entryName fingerprint
  rw [entryPath, hdirectory] at hread
  obtain ⟨found, time, hfound, -, hfile⟩ := FileSystem.read_eq_ok_iff.mp hread
  change after.placeOf true (directory.join ⟨nameOf fingerprint⟩)
    (FileSystem.stepsOf (directory.join ⟨nameOf fingerprint⟩)) = .ok found at hfound
  rw [stepsOf_join directory hname] at hfound
  obtain ⟨there, hthere, -, hstands⟩ := FileSystem.placeOf_of_append_down hfound
  have htarget : after.target (directory.join ⟨nameOf fingerprint⟩) =
      .ok (.child there (nameOf fingerprint)) :=
    (target_join_iff directory hname).mpr ⟨hthere, hstands.directory, hstands.short, rfl⟩
  obtain rfl := hp _ hname there _ htarget
  obtain ⟨node, hnode, hend⟩ := hstands.node
  refine hleft _ ⟨isEntryName_nameOf fingerprint, node, hnode, ?_⟩ ⟨there, _, htarget⟩
  rintro rfl
  have hplain : ∀ target, Node.directory ≠ .link target := by
    intro target hnever
    cases hnever
  have hsame : after.node? found.location = some .directory := by
    rw [hend hplain]
    exact hnode
  cases hfile.symm.trans hsame

/-- After the entries went and the index was seen to, nothing is found. -/
theorem Deletes.misses (h : Deletes directory place names fs gone middle)
    (hnames : ∀ name, IsEntry fs place name → name ∈ names)
    (hp : PointsTo middle directory place) (hr : Reindexes place middle after)
    {cleared : Cache} (hdirectory : cleared.directory = directory) (fingerprint : Fingerprint)
    (engine : String) : (cleared.lookup after fingerprint engine).1 = none := by
  refine lookup_eq_none_of_left hdirectory (hp.of_alters hr.alters fun _ hnew => hnew.2) ?_ _ _
  rintro name ⟨hname, node, hnode, hdir⟩ ⟨there, last, ht⟩
  have hother : place ++ [name] ≠ place ++ [indexFile] := fun heq =>
    not_isEntryName_indexFile (List.singleton_inj.mp (List.append_cancel_left heq) ▸ hname)
  rw [hr.nodes _ hother, h.nodes] at hnode
  split at hnode
  · cases hnode
  · rename_i hkept
    have hentry : IsEntry fs place name := ⟨hname, node, hnode, hdir⟩
    refine h.left name (hnames name hentry) hentry
      (fun hmem => hkept ⟨name, hmem, List.prefix_refl _⟩) ⟨there, last, ?_⟩
    exact target_of_alters hr.alters (fun _ hnew => hnew.2) hname.isPiece ht

/-- Whatever is not an entry that is deleted stays as it is. -/
theorem Deletes.node?_eq (ht : IsTree fs)
    (h : Deletes cache.directory place names fs gone middle) {location : List Name}
    (hother : ∀ name ∈ gone, location ≠ place ++ [name]) :
    middle.node? location = fs.node? location := by
  rw [h.nodes]
  split
  · -- Below an entry there is nothing.
    rename_i hbelow
    obtain ⟨name, hmem, rest, rfl⟩ := hbelow
    refine (ht.node?_eq_none (h.entries name hmem).ne_directory rest ?_).symm
    rintro rfl
    exact hother name hmem (List.append_nil _)
  · rfl

/-- The parts of clearing, put together. -/
theorem Deletes.clears {count : Nat} {cleared : Cache} (ht : IsTree fs)
    (h : Deletes cache.directory place names fs gone middle) (hcount : count = gone.length)
    (hnames : ∀ name, IsEntry fs place name → name ∈ names)
    (hp : PointsTo middle cache.directory place) (hr : Reindexes place middle after)
    (hcache : cleared = { cache with entries := [], currentSize := 0, dirty := cleared.dirty })
    (hindex : (cleared.dirty = false ∧
        ∃ time, after.node? (place ++ [indexFile]) = some (.file emptyIndex time)) ∨
      (cleared.dirty = true ∧ after = middle ∧
        ∀ written, after.replaceFile cache.directory cache.indexPath emptyIndex ≠ .ok written)) :
    Clears cache fs place gone (count, cleared, after) := by
  have hnotIndex : ∀ name ∈ gone, place ++ [name] ≠ place ++ [indexFile] := fun name hmem heq =>
    not_isEntryName_indexFile
      (List.singleton_inj.mp (List.append_cancel_left heq) ▸ (h.entries name hmem).1)
  constructor
  case entries => exact h.entries
  case nodup => exact h.nodup
  case count => exact hcount
  case absent =>
    intro name hmem
    show after.node? (place ++ [name]) = none
    rw [hr.nodes _ (hnotIndex name hmem), h.nodes, if_pos ⟨name, hmem, List.prefix_refl _⟩]
  case complete => exact fun hopen name hentry => h.complete hopen (hnames name hentry) hentry
  case left =>
    rintro name hentry hkept ⟨there, last, htarget⟩
    refine h.left name (hnames name hentry) hentry hkept ⟨there, last, ?_⟩
    exact target_of_alters hr.alters (fun _ hnew => hnew.2) hentry.1.isPiece htarget
  case others =>
    intro location hother hindex
    exact (hr.nodes location hindex).trans (h.node?_eq ht hother)
  case workingDirectory => exact hr.alters.workingDirectory.trans h.alters.workingDirectory
  case lost => exact hr.alters.lost.trans h.alters.lost
  case index =>
    refine hindex.imp_right ?_
    rintro ⟨hdirty, rfl, hnever⟩
    exact ⟨hdirty, h.node?_eq ht fun name hmem heq => hnotIndex name hmem heq.symm, hnever⟩
  case written =>
    intro hopen hlocated hdirectory
    rcases hindex with ⟨hclean, -⟩ | ⟨-, rfl, hnever⟩
    · exact hclean
    · obtain ⟨written, hwritten⟩ := h.exists_replaceFile hopen hlocated hdirectory emptyIndex
      exact absurd hwritten (hnever written)
  case cache => exact hcache
  case misses =>
    have hdirectory : cleared.directory = cache.directory := by rw [hcache]
    exact h.misses hnames hp hr hdirectory

/-- The name of an entry, in capitals. -/
def capitalName : Name :=
  Bytes.ofText (String.ofList (List.replicate 64 'A')) ++ Bytes.ofText entrySuffix

/-- A directory with an entry under a name in capitals, a directory that is named like an entry, and
a file that is left from a write. -/
def mixedDirectory : FileSystem :=
  { FileSystem.empty with nodes := [([Bytes.ofText "c"], .directory),
      ([Bytes.ofText "c", capitalName], .file [1, 2, 3, 4] ⟨978307200, 0⟩),
      ([Bytes.ofText "c", nameOf (uniform 0xBB)], .directory),
      ([Bytes.ofText "c", Bytes.ofText ".tmp1"], .file [] ⟨978307200, 0⟩)] }

/-- A directory with two links to itself, both named like entries. -/
def linkedDirectory : FileSystem :=
  { FileSystem.empty with nodes := [([Bytes.ofText "c"], .directory),
      ([Bytes.ofText "c", nameOf (uniform 0xAA)], .link (.ofString ".")),
      ([Bytes.ofText "c", nameOf (uniform 0xBB)], .link (.ofString "."))] }

/-- A cache that comes to its directory through these links. -/
def linkedCache : Cache :=
  { directory := ⟨Bytes.ofText "/c/" ++ nameOf (uniform 0xAA) ++ Bytes.ofText "/" ++
      nameOf (uniform 0xBB)⟩
    portableRoot := none
    sizeLimit := 1000 }

theorem find_linkedDirectory : linkedDirectory.find linkedCache.directory =
    .ok (⟨[Bytes.ofText "c"], 0⟩, .directory) := by
  decide +kernel

theorem list_linkedDirectory : linkedDirectory.list linkedCache.directory =
    .ok [nameOf (uniform 0xAA), nameOf (uniform 0xBB)] := by
  cbv

end Cache

end ScriptModules
