import SovereignJedi.Js.Value

/-! Strings of Unicode characters: the default lower-casing, which Rust and JavaScript share, over
the mappings of the Unicode Character Database, and trimming by any notion of white space. -/

namespace SovereignJedi.Js

/-! ### Lower-casing -/

/-- The properties of the Unicode Character Database on which lower-casing depends. -/
structure UnicodeData where
  lowercase : Char → List Char
  cased : Char → Bool
  caseIgnorable : Char → Bool

namespace UnicodeData

def capitalSigma : Char := Char.ofNat 0x3A3
def finalSmallSigma : Char := Char.ofNat 0x3C2
def nextLine : Char := Char.ofNat 0x85
def zeroWidthNoBreakSpace : Char := Char.ofNat 0xFEFF

/-- What the database says of ASCII and of two characters without case. -/
structure Standard (U : UnicodeData) : Prop where
  ascii : ∀ c : Char, c.toNat < 128 → U.lowercase c = [c.toLower]
  nextLine : U.lowercase nextLine = [UnicodeData.nextLine]
  zeroWidthNoBreakSpace :
    U.lowercase zeroWidthNoBreakSpace = [UnicodeData.zeroWidthNoBreakSpace]

variable (U : UnicodeData)

/-- A cased letter comes next, after characters that are ignored. -/
def casedNext (cs : List Char) : Bool := (cs.dropWhile U.caseIgnorable).head?.any U.cased

/-- The condition Final_Sigma: `before` is what precedes, in reverse, and `after` what follows. -/
def finalSigma (before after : List Char) : Bool := U.casedNext before && !U.casedNext after

def lowercaseAfter (before : List Char) : List Char → List Char
  | [] => []
  | c :: cs =>
    (if c = capitalSigma ∧ U.finalSigma before cs then [finalSmallSigma] else U.lowercase c) ++
      lowercaseAfter (c :: before) cs

def toLowercase (s : String) : String := .ofList (U.lowercaseAfter [] s.toList)

variable {U}

/-- A character without case stays. -/
theorem mem_toLowercase {c : Char} (hc : U.lowercase c = [c]) (hsigma : c ≠ capitalSigma)
    {s : String} (h : c ∈ s.toList) : c ∈ (U.toLowercase s).toList := by
  have hlist : ∀ (cs before : List Char), c ∈ cs → c ∈ U.lowercaseAfter before cs := by
    intro cs
    induction cs with
    | nil => simp
    | cons d ds ih =>
      intro before hmem
      rw [lowercaseAfter, List.mem_append]
      rcases List.mem_cons.mp hmem with rfl | hmem
      · left
        rw [if_neg fun h => hsigma h.1, hc]
        simp
      · exact Or.inr (ih _ hmem)
  rw [toLowercase, String.toList_ofList]
  exact hlist _ _ h

/-- A string in which no character has another lower case is its own. -/
theorem toLowercase_eq_self {s : String}
    (h : ∀ c ∈ s.toList, U.lowercase c = [c] ∧ c ≠ capitalSigma) : U.toLowercase s = s := by
  have hlist : ∀ (cs before : List Char), (∀ c ∈ cs, U.lowercase c = [c] ∧ c ≠ capitalSigma) →
      U.lowercaseAfter before cs = cs := by
    intro cs
    induction cs with
    | nil => exact fun _ _ => rfl
    | cons d ds ih =>
      intro before hds
      obtain ⟨hd, hsigma⟩ := hds d (by simp)
      rw [lowercaseAfter, if_neg fun h => hsigma h.1, hd,
        ih _ fun c hc => hds c (List.mem_cons_of_mem _ hc)]
      rfl
  rw [toLowercase, hlist _ _ h, String.ofList_toList]

def kelvinSign : Char := Char.ofNat 0x212A

/-- What the database says of the characters outside ASCII: one of them has an ASCII letter as its
lower case, the lower case of any other has a character outside ASCII. -/
structure KelvinOnly (U : UnicodeData) : Prop where
  kelvinSign : U.lowercase kelvinSign = ['k']
  nonAscii : ∀ c : Char, 128 ≤ c.toNat → c ≠ UnicodeData.kelvinSign →
    ∃ d ∈ U.lowercase c, 128 ≤ d.toNat

/-- The lower case of an ASCII character or of the Kelvin sign. -/
def lowerAscii (c : Char) : Char := if c = UnicodeData.kelvinSign then 'k' else c.toLower

theorem lowercaseAfter_eq_map (hU : U.Standard) (hK : U.KelvinOnly) {cs : List Char}
    (h : ∀ c ∈ cs, c.toNat < 128 ∨ c = UnicodeData.kelvinSign) (before : List Char) :
    U.lowercaseAfter before cs = cs.map lowerAscii := by
  induction cs generalizing before with
  | nil => rfl
  | cons c cs ih =>
    obtain ⟨hc, hcs⟩ := List.forall_mem_cons.mp h
    have hsigma : c ≠ capitalSigma := by
      rintro rfl
      revert hc
      decide
    have hone : U.lowercase c = [lowerAscii c] := by
      rw [lowerAscii]
      split
      · next hkelvin => rw [hkelvin, hK.kelvinSign]
      · next hkelvin => exact hU.ascii c (hc.resolve_right hkelvin)
    rw [lowercaseAfter, if_neg fun h => hsigma h.1, hone, ih hcs]
    rfl

/-- Only ASCII characters and the Kelvin sign have a lower case in ASCII. -/
theorem ascii_of_lowercaseAfter (hK : U.KelvinOnly) {before cs : List Char}
    (h : ∀ d ∈ U.lowercaseAfter before cs, d.toNat < 128) :
    ∀ c ∈ cs, c.toNat < 128 ∨ c = UnicodeData.kelvinSign := by
  induction cs generalizing before with
  | nil => simp
  | cons c cs ih =>
    simp only [lowercaseAfter, List.mem_append, or_imp, forall_and] at h
    refine List.forall_mem_cons.mpr ⟨?_, ih h.2⟩
    by_contra hc
    simp only [not_or, Nat.not_lt] at hc
    have hsmall := h.1
    split at hsmall
    · exact absurd (hsmall finalSmallSigma (by simp)) (by decide)
    · obtain ⟨d, hd, hlarge⟩ := hK.nonAscii c hc.1 hc.2
      exact absurd (hsmall d hd) (by omega)

/-- The database restricted to ASCII: other characters have no case. -/
def basicLatin : UnicodeData where
  lowercase c := if c.toNat < 128 then [c.toLower] else [c]
  cased c := c.isAlpha
  caseIgnorable _ := false

theorem basicLatin_standard : basicLatin.Standard where
  ascii c hc := if_pos hc
  nextLine := by decide
  zeroWidthNoBreakSpace := by decide

/-- The database restricted to ASCII and the Kelvin sign. -/
def latinKelvin : UnicodeData :=
  { basicLatin with lowercase := fun c => if c = kelvinSign then ['k'] else basicLatin.lowercase c }

theorem latinKelvin_lowercase {c : Char} (h : c ≠ UnicodeData.kelvinSign) :
    latinKelvin.lowercase c = basicLatin.lowercase c := if_neg h

theorem latinKelvin_standard : latinKelvin.Standard where
  ascii c hc := by
    rw [latinKelvin_lowercase, basicLatin_standard.ascii c hc]
    rintro rfl
    revert hc
    decide
  nextLine := by decide
  zeroWidthNoBreakSpace := by decide

theorem latinKelvin_kelvinOnly : latinKelvin.KelvinOnly where
  kelvinSign := by decide
  nonAscii c hc hkelvin := by
    refine ⟨c, ?_, hc⟩
    rw [latinKelvin_lowercase hkelvin]
    simp [basicLatin, Nat.not_lt.mpr hc]

end UnicodeData

/-! ### Trimming -/

/-- `cs` without the characters at both ends that are white space. -/
def trimBy (space : Char → Bool) (cs : List Char) : List Char :=
  ((cs.dropWhile space).reverse.dropWhile space).reverse

section Trim

variable {space space' : Char → Bool} {cs : List Char} {c : Char}

theorem mem_dropWhile (h : c ∈ cs) (hc : space c = false) : c ∈ cs.dropWhile space := by
  induction cs with
  | nil => cases h
  | cons d ds ih =>
    rw [List.dropWhile_cons]
    rcases List.mem_cons.mp h with rfl | h
    · simp [hc]
    · split
      · exact ih h
      · exact List.mem_cons_of_mem _ h

theorem dropWhile_congr (h : ∀ c ∈ cs, space c = space' c) :
    cs.dropWhile space = cs.dropWhile space' := by
  induction cs with
  | nil => rfl
  | cons d ds ih =>
    rw [List.dropWhile_cons, List.dropWhile_cons, h d (by simp)]
    split
    · exact ih fun c hc => h c (List.mem_cons_of_mem _ hc)
    · rfl

theorem trimBy_subset (h : c ∈ trimBy space cs) : c ∈ cs :=
  List.dropWhile_subset _ (List.mem_reverse.mp (List.dropWhile_subset _ (List.mem_reverse.mp h)))

/-- What is not white space is not trimmed. -/
theorem mem_trimBy (h : c ∈ cs) (hc : space c = false) : c ∈ trimBy space cs :=
  List.mem_reverse.mpr (mem_dropWhile (List.mem_reverse.mpr (mem_dropWhile h hc)) hc)

/-- Trimming depends on what is white space among the characters only. -/
theorem trimBy_congr (h : ∀ c ∈ cs, space c = space' c) : trimBy space cs = trimBy space' cs := by
  rw [trimBy, dropWhile_congr h, dropWhile_congr, trimBy]
  intro c hc
  exact h c (List.dropWhile_subset _ (List.mem_reverse.mp hc))

theorem trimBy_eq_self (h : ∀ c ∈ cs, space c = false) : trimBy space cs = cs := by
  rw [trimBy, dropWhile_of_all_not h, dropWhile_of_all_not, List.reverse_reverse]
  exact fun c hc => h c (List.mem_reverse.mp hc)

end Trim

end SovereignJedi.Js
