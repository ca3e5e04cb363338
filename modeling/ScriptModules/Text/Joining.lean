import ScriptModules.Text.Mark

/-!
# Joining letters

In some scripts a letter is joined to its neighbours (property `Joining_Type`).
It may join the letter after it (`L`), the one before it (`R`) or both (`D`).
Marks stand aside: the letters around them see each other.  The table follows
Unicode 17.0.
-/

namespace ScriptModules.Text

/-- The letters that join others (types `L`, `R` and `D`), and the characters to
which letters join without being changed themselves (`C`). -/
def joiningLines : List String := [
  "620:D 622-625:R 626:D 627:R 628:D 629:R 62A-62E:D 62F-632:R 633-63F:D 640:C 641-647:D 648:R",
  "649-64A:D 66E-66F:D 671-673:R 675-677:R 678-687:D 688-699:R 69A-6BF:D 6C0:R 6C1-6C2:D 6C3-6CB:R",
  "6CC:D 6CD:R 6CE:D 6CF:R 6D0-6D1:D 6D2-6D3:R 6D5:R 6EE-6EF:R 6FA-6FC:D 6FF:D 710:R 712-714:D",
  "715-719:R 71A-71D:D 71E:R 71F-727:D 728:R 729:D 72A:R 72B:D 72C:R 72D-72E:D 72F:R 74D:R",
  "74E-758:D 759-75B:R 75C-76A:D 76B-76C:R 76D-770:D 771:R 772:D 773-774:R 775-777:D 778-779:R",
  "77A-77F:D 7CA-7EA:D 7FA:C 840:R 841-845:D 846-847:R 848:D 849:R 84A-853:D 854:R 855:D 856-858:R",
  "860:D 862-865:D 867:R 868:D 869-86A:R 870-882:R 883-885:C 886:D 889-88D:D 88E:R 88F:D 8A0-8A9:D",
  "8AA-8AC:R 8AE:R 8AF-8B0:D 8B1-8B2:R 8B3-8B8:D 8B9:R 8BA-8C8:D 1807:D 180A:C 1820-1878:D",
  "1887-18A8:D 18AA:D 200D:C A840-A871:D A872:L 10AC0-10AC4:D 10AC5:R 10AC7:R 10AC9-10ACA:R",
  "10ACD:L 10ACE-10AD2:R 10AD3-10AD6:D 10AD7:L 10AD8-10ADC:D 10ADD:R 10ADE-10AE0:D 10AE1:R 10AE4:R",
  "10AEB-10AEE:D 10AEF:R 10B80:D 10B81:R 10B82:D 10B83-10B85:R 10B86-10B88:D 10B89:R 10B8A-10B8B:D",
  "10B8C:R 10B8D:D 10B8E-10B8F:R 10B90:D 10B91:R 10BA9-10BAC:R 10BAD-10BAE:D 10D00:L 10D01-10D21:D",
  "10D22:R 10D23:D 10EC2:R 10EC3-10EC4:D 10EC6-10EC7:D 10F30-10F32:D 10F33:R 10F34-10F44:D",
  "10F51-10F53:D 10F54:R 10F70-10F73:D 10F74-10F75:R 10F76-10F81:D 10FB0:D 10FB2-10FB3:D",
  "10FB4-10FB6:R 10FB8:D 10FB9-10FBA:R 10FBB-10FBC:D 10FBD:R 10FBE-10FBF:D 10FC1:D 10FC2-10FC3:R",
  "10FC4:D 10FC9:R 10FCA:D 10FCB:L 1E900-1E943:D"]

/-- The table of joining types. -/
def joiningTypes : CodeTable Char := .ofLines (fun text => text.headD 'U') joiningLines

/-- The joining type of a character; `T` stands for those that stand aside and `U`
for those that join nothing. -/
def joiningType (c : Char) : Char :=
  match joiningTypes.value? c with
  | some joining => joining
  | none => if nonspacingMarks.holds c || c.toNat == 0x1E94B then 'T' else 'U'

end ScriptModules.Text
