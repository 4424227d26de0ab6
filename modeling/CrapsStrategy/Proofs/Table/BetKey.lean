import CrapsStrategy.Proofs.Decimal.Reader
import CrapsStrategy.Proofs.Text.Integer
import CrapsStrategy.Proofs.Text.Unquoted
import CrapsStrategy.Table.BetKey

/-!
# `CrapsStrategy.Proofs.Table.BetKey`: one key for a bet

`canonical` trims a text, lowers it, drops its apostrophes and then
looks for a spelling it knows. The order matters at one place. When the
apostrophes are dropped, a blank that stood behind one may come to the
end of the text, and the key has it there. Such a key is not its own
key, and it is the only kind that is not (`canonical_canonical_iff`):
lowering changes no blanks, and a spelling with a key of its own has
none.

The number of a place bet may be written with a plus sign and with
leading zeros, and the key keeps them. They are all the freedom there is
(`placeNumber?_eq_some_iff`), so two keys of one number are equal
exactly if they agree in both.
-/

set_option autoImplicit false

namespace CrapsStrategy

namespace BetKey

/-! ### Spellings -/

/-- The words that stand for the key of another bet. -/
def nicknames : List (List Char) :=
  ["pass", "passline", "dont", "dontpass", "dontcome"].map String.toList

/-- Their keys. -/
def nicknamed : List (List Char) :=
  ["pass_line", "dont_pass", "dont_come"].map String.toList

/-- A spelling that is no nickname can only be the number of a place
bet. -/
theorem ofSpelling_of_notMem {cs : List Char} (h : cs ∉ nicknames) :
    ofSpelling cs =
      if "place".toList.isPrefixOf cs ∧ cs.drop 5 ≠ [] ∧ (cs.drop 5).all Text.isDigit = true then
        "place_".toList ++ cs.drop 5
      else cs := by
  have hword : ∀ word : String, String.ofList cs = word → word.toList ∉ nicknames := by
    rintro word rfl
    rwa [String.toList_ofList]
  unfold ofSpelling
  split
  case h_6 => rfl
  all_goals
    rename_i hcs
    exact absurd (by decide) (hword _ hcs)

/-- A spelling is a key already, or a nickname, or a number right after
`place`. -/
theorem ofSpelling_cases (cs : List Char) :
    ofSpelling cs = cs ∨ (cs ∈ nicknames ∧ ofSpelling cs ∈ nicknamed) ∨
      ∃ number, number ≠ [] ∧ number.all Text.isDigit = true ∧ cs = "place".toList ++ number ∧
        ofSpelling cs = "place_".toList ++ number := by
  by_cases hword : cs ∈ nicknames
  · have hkeys : ∀ cs ∈ nicknames, ofSpelling cs ∈ nicknamed := by
      decide
    exact .inr (.inl ⟨hword, hkeys cs hword⟩)
  · rw [ofSpelling_of_notMem hword]
    split
    · rename_i hplace
      obtain ⟨hplaced, hne, hdigits⟩ := hplace
      obtain ⟨number, rfl⟩ := List.isPrefixOf_iff_prefix.1 hplaced
      exact .inr (.inr ⟨number, hne, hdigits, rfl, rfl⟩)
    · exact .inl rfl

/-- A key is a spelling of itself. -/
theorem ofSpelling_ofSpelling (cs : List Char) : ofSpelling (ofSpelling cs) = ofSpelling cs := by
  rcases ofSpelling_cases cs with hsame | ⟨_, hkey⟩ | ⟨number, _, _, _, hkey⟩
  · rw [hsame, hsame]
  · have hkeys : ∀ key ∈ nicknamed, ofSpelling key = key := by
      decide
    exact hkeys _ hkey
  · -- The line after `place` is no digit.
    have hword : "place_".toList ++ number ∉ nicknames := by
      have hshort : ∀ word ∈ nicknames, word.take 6 ≠ "place_".toList := by
        decide
      intro hmem
      exact hshort _ hmem rfl
    rw [hkey, ofSpelling_of_notMem hword, if_neg]
    rintro ⟨_, _, hdigits⟩
    cases hdigits

/-- A character that cleaning a text leaves alone. -/
def isKeyChar (c : Char) : Bool :=
  !Text.isMark c && !Text.isCapital c

/-- What the key of a spelling has beside the spelling needs no cleaning.
-/
theorem mem_ofSpelling {cs : List Char} {c : Char} (h : c ∈ ofSpelling cs) :
    c ∈ cs ∨ isKeyChar c = true := by
  rcases ofSpelling_cases cs with hsame | ⟨_, hkey⟩ | ⟨number, _, _, hcs, hkey⟩
  · rw [hsame] at h
    exact .inl h
  · have hkeys : ∀ key ∈ nicknamed, key.all isKeyChar = true := by
      decide +kernel
    exact .inr (List.all_eq_true.1 (hkeys _ hkey) c h)
  · rw [hkey] at h
    rcases List.mem_append.1 h with hplace | hnumber
    · have hplaces : "place_".toList.all isKeyChar = true := by
        decide +kernel
      exact .inr (List.all_eq_true.1 hplaces c hplace)
    · rw [hcs]
      exact .inl (List.mem_append_right _ hnumber)

/-- The key has blanks at its ends exactly if the spelling has, and then
the spelling is the key. -/
theorem trimChars_ofSpelling (cs : List Char) :
    (Text.trimChars cs = cs ∧ Text.trimChars (ofSpelling cs) = ofSpelling cs) ∨
      (Text.trimChars cs ≠ cs ∧ ofSpelling cs = cs) := by
  rcases ofSpelling_cases cs with hsame | ⟨hword, hkey⟩ | ⟨number, hne, hdigits, hcs, hkey⟩
  · rw [hsame]
    exact (Decidable.em _).imp (fun h => ⟨h, h⟩) fun h => ⟨h, rfl⟩
  · have hwords : ∀ cs ∈ nicknames ++ nicknamed, Text.trimChars cs = cs := by
      decide
    exact .inl ⟨hwords _ (List.mem_append_left _ hword), hwords _ (List.mem_append_right _ hkey)⟩
  · have hnumber : Text.IsSolid number :=
      Decimal.isSolid_of_digits? (if_pos ⟨hne, hdigits⟩)
    have hplain : Text.IsSolid "place".toList := by
      decide
    have hlined : Text.IsSolid "place_".toList := by
      decide
    rw [hkey, hcs]
    exact .inl ⟨Text.trimChars_of_solid (List.forall_mem_append.2 ⟨hplain, hnumber⟩),
      Text.trimChars_of_solid (List.forall_mem_append.2 ⟨hlined, hnumber⟩)⟩

/-! ### Keys of keys -/

/-- A text as the steps of `canonical` clean it. -/
def spelling (key : String) : List Char :=
  Text.unquotedChars (Text.lower (Text.trim key)).toList

/-- The key of a text is the key of its spelling. -/
theorem canonical_eq (key : String) : canonical key = String.ofList (ofSpelling (spelling key)) :=
  rfl

/-- Only the blanks at its ends are cleaned from a text without capitals
and apostrophes. -/
theorem spelling_ofList {cs : List Char} (hcapital : ∀ c ∈ cs, Text.isCapital c = false)
    (hquote : '\'' ∉ cs) : spelling (String.ofList cs) = Text.trimChars cs := by
  rw [spelling, Text.trim, Text.lower, String.toList_ofList, String.toList_ofList,
    String.toList_ofList,
    Text.lowerFrom_eq_self fun c hc => hcapital c (Text.mem_of_mem_trimChars hc)]
  exact Text.unquotedChars_eq_self fun hmem => hquote (Text.mem_of_mem_trimChars hmem)

/-- A spelling has no capitals. -/
theorem isCapital_of_mem_spelling {key : String} {c : Char} (h : c ∈ spelling key) :
    Text.isCapital c = false := by
  have hlower := List.mem_of_mem_filter h
  rw [Text.lower, String.toList_ofList] at hlower
  exact Text.isCapital_of_mem_lowerFrom hlower

/-- A key has no apostrophe, which is removed from the spelling. -/
theorem quote_notMem_canonical (key : String) : '\'' ∉ (canonical key).toList := by
  rw [canonical_eq, String.toList_ofList]
  intro hmem
  rcases mem_ofSpelling hmem with hold | hnew
  · exact Text.quote_notMem_unquotedChars _ hold
  · exact absurd hnew (by decide)

/-- A key is cleaned of the blanks at its ends, and of nothing else. -/
theorem spelling_canonical (key : String) :
    spelling (canonical key) = Text.trimChars (ofSpelling (spelling key)) := by
  have hquote := quote_notMem_canonical key
  rw [canonical_eq, String.toList_ofList] at hquote
  rw [canonical_eq]
  refine spelling_ofList (fun c hc => ?_) hquote
  rcases mem_ofSpelling hc with hold | hnew
  · exact isCapital_of_mem_spelling hold
  · rw [isKeyChar, Bool.and_eq_true, Bool.not_eq_true', Bool.not_eq_true'] at hnew
    exact hnew.2

/-- A text leads to a key that is its own key exactly if, once its blanks
at the ends are gone, no apostrophe hides another. -/
theorem canonical_canonical_iff (key : String) : canonical (canonical key) = canonical key ↔
    Text.trim (Text.unquoted (Text.trim key)) = Text.unquoted (Text.trim key) := by
  have hclean : Text.trim (Text.unquoted (Text.trim key)) = Text.unquoted (Text.trim key) ↔
      Text.trimChars (spelling key) = spelling key := by
    rw [spelling, Text.lower, String.toList_ofList, Text.trimChars_unquotedChars_lowerFrom,
      Text.trim, Text.unquoted, String.toList_ofList, String.ofList_inj]
  rw [hclean, canonical_eq (canonical key), spelling_canonical, canonical_eq, String.ofList_inj]
  rcases trimChars_ofSpelling (spelling key) with ⟨hspelling, hkey⟩ | ⟨hspelling, hkey⟩
  · rw [hkey, ofSpelling_ofSpelling]
    exact iff_of_true rfl hspelling
  · -- The key of a trimmed text is trimmed, and this one is not.
    rw [hkey]
    refine iff_of_false (fun h => ?_) hspelling
    rcases trimChars_ofSpelling (Text.trimChars (spelling key)) with ⟨_, htrim⟩ | ⟨hne, _⟩
    · rw [h] at htrim
      exact hspelling htrim
    · exact hne (Text.trimChars_trimChars _)

/-- The key of a key is its own key. -/
theorem canonical_settles (key : String) :
    canonical (canonical (canonical key)) = canonical (canonical key) := by
  have hquote : '\'' ∉ (Text.trim (canonical key)).toList :=
    fun hmem => quote_notMem_canonical key (Text.mem_of_mem_trim hmem)
  refine (canonical_canonical_iff (canonical key)).2 ?_
  rw [Text.unquoted, Text.unquotedChars_eq_self hquote, String.ofList_toList, Text.trim_trim]

/-! ### Place bets -/

/-- A key of the place bet on a number, with the number as a numeral. -/
def placeKey (plus : Bool) (zeros n : Nat) : String :=
  "place_" ++ String.ofList (Text.numeral plus zeros n)

/-- The characters of such a key. -/
theorem toList_placeKey (plus : Bool) (zeros n : Nat) :
    (placeKey plus zeros n).toList = "place_".toList ++ Text.numeral plus zeros n := by
  rw [placeKey, String.toList_append]
  exact congrArg _ String.toList_ofList

/-- Two such keys are equal only if they are written alike. -/
theorem placeKey_inj {plus plus' : Bool} {zeros zeros' n : Nat} :
    placeKey plus zeros n = placeKey plus' zeros' n ↔ plus = plus' ∧ zeros = zeros' := by
  rw [← String.toList_inj, toList_placeKey, toList_placeKey, List.append_cancel_left_eq,
    Text.numeral_inj]

/-- A key has a number exactly if it is one of the keys of that number.
-/
theorem placeNumber?_eq_some_iff {key : String} {n : Nat} :
    placeNumber? key = some n ↔ isPoint n = true ∧ ∃ plus zeros, key = placeKey plus zeros n := by
  -- A point number is positive and small, so the bound on what is read is
  -- no further condition.
  have hpoints : ∀ n ∈ pointNumbers, 0 < n ∧ n ≤ 255 := by
    decide
  unfold placeNumber?
  split
  · rename_i hplaced
    obtain ⟨number, hkey⟩ := List.isPrefixOf_iff_prefix.1 hplaced
    have hdrop : key.toList.drop 6 = number := by
      rw [← hkey]
      rfl
    rw [Option.filter_eq_some_iff, Text.natUpTo?, Option.filter_eq_some_iff, hdrop, and_comm]
    refine and_congr_right fun hpoint => ?_
    obtain ⟨hpos, hle⟩ := hpoints n (List.contains_iff_mem.1 hpoint)
    rw [and_iff_left (decide_eq_true hle), Text.nat?_eq_some_iff hpos, String.toList_ofList]
    refine exists_congr fun plus => exists_congr fun zeros => ?_
    rw [← String.toList_inj, toList_placeKey, ← hkey, List.append_cancel_left_eq]
  · rename_i hplaced
    refine iff_of_false (by simp) ?_
    rintro ⟨_, plus, zeros, rfl⟩
    refine hplaced (List.isPrefixOf_iff_prefix.2 ?_)
    rw [toList_placeKey]
    exact List.prefix_append _ _

/-- A key is its own key exactly if no apostrophe of the text hides a
blank at its ends, and the key of a key always is. Keys of one number
are equal exactly if the numeral in them has the same sign and as many
zeros. -/
theorem canonical_unique (key key' : String) :
    (canonical (canonical key) = canonical key ↔
      Text.trim (Text.unquoted (Text.trim key)) = Text.unquoted (Text.trim key)) ∧
    canonical (canonical (canonical key)) = canonical (canonical key) ∧
    ∀ n, placeNumber? (canonical key) = some n → placeNumber? (canonical key') = some n →
      ∃ plus zeros plus' zeros', canonical key = placeKey plus zeros n ∧
        canonical key' = placeKey plus' zeros' n ∧
        (canonical key = canonical key' ↔ plus = plus' ∧ zeros = zeros') := by
  refine ⟨canonical_canonical_iff key, canonical_settles key, ?_⟩
  intro n hkey hkey'
  obtain ⟨_, plus, zeros, hplace⟩ := placeNumber?_eq_some_iff.1 hkey
  obtain ⟨_, plus', zeros', hplace'⟩ := placeNumber?_eq_some_iff.1 hkey'
  refine ⟨plus, zeros, plus', zeros', hplace, hplace', ?_⟩
  rw [hplace, hplace', placeKey_inj]

/-- Two spellings of the six, and how their numerals are written. -/
theorem canonical_unique_six :
    placeNumber? (canonical "Place6") = some 6 ∧ placeNumber? (canonical " place_6") = some 6 ∧
      ∃ plus zeros plus' zeros', canonical "Place6" = placeKey plus zeros 6 ∧
        canonical " place_6" = placeKey plus' zeros' 6 ∧
        (canonical "Place6" = canonical " place_6" ↔ plus = plus' ∧ zeros = zeros') := by
  have hplain : placeNumber? (canonical "Place6") = some 6 := by
    decide +kernel
  have hlined : placeNumber? (canonical " place_6") = some 6 := by
    decide +kernel
  exact ⟨hplain, hlined, (canonical_unique _ _).2.2 6 hplain hlined⟩

/-- A blank behind an apostrophe gets into the key, and is gone from the
key of that. A zero before the number makes another key of it. -/
theorem canonical_hiddenBlank :
    canonical (canonical "' pass") ≠ canonical "' pass" ∧
      placeNumber? (canonical "place6") = some 6 ∧ placeNumber? (canonical "place06") = some 6 ∧
      canonical "place6" ≠ canonical "place06" := by
  decide +kernel

end BetKey

end CrapsStrategy
