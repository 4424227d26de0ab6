import CrapsStrategy.Proofs.Condition.Widening
import CrapsStrategy.Proofs.Rule.Setvar

/-!
# `CrapsStrategy.Proofs.Script.Variable`: the texts of a variable

A variable is written as its bare name, or as a key of the map `vars`.
Both texts are scripts of one expression: the name (`compile_name`), and
a subscript of `vars` by the name as a text (`compile_varsKeyText`). So
the value of either text is that of its expression in every scope.
-/

set_option autoImplicit false

namespace CrapsStrategy

namespace Lexer

/-! ### Tokens one by one -/

/-- Wherever a text stands inside `depth` brackets, these are its
tokens. -/
def Scans (depth : Nat) (cs : List Char) (tokens : List Token) : Prop :=
  ∀ position, ∃ ts, scan .script depth position cs = .ok ts ∧ ts.map Located.token = tokens

/-- At the end of a text there is one token. -/
theorem scans_nil (depth : Nat) : Scans depth [] [.endOfInput] := by
  intro position
  exact ⟨[⟨.endOfInput, position⟩], by rw [scan], rfl⟩

/-- A piece that stands for a token is the first token of the text. -/
theorem Scans.cons {depth : Nat} {c : Char} {rest : List Char} {token : Token}
    {tokens : List Token} (more : Nat)
    (h : Scans (depthAfter depth (some token)) (rest.drop more) tokens)
    (hpiece : ∀ position,
      piece .script depth position c rest = .ok { token := some token, more }) :
    Scans depth (c :: rest) (token :: tokens) := by
  intro position
  obtain ⟨ts, hscan, htokens⟩ := h (position.advanceBy (c :: rest.take more))
  refine ⟨⟨token, position⟩ :: ts, ?_, by rw [List.map_cons, htokens]⟩
  rw [scan, hpiece]
  show (scan .script (depthAfter depth (some token)) (position.advanceBy (c :: rest.take more))
    (rest.drop more) >>= fun ts => pure (⟨token, position⟩ :: ts)) = _
  rw [hscan]
  rfl

/-- A quoted text without escapes is what stands between the quotes. -/
theorem textBody?_plain {quote : Char} {cs : List Char}
    (h : ∀ c ∈ cs, c ≠ quote ∧ c ≠ '\\') (rest : List Char) :
    textBody? quote (cs ++ quote :: rest) = some (cs, cs.length + 1) := by
  induction cs with
  | nil => exact textBody?_quote quote rest
  | cons c cs ih =>
    rw [List.forall_mem_cons] at h
    rw [List.cons_append, textBody?_cons h.1.1 h.1.2, ih h.2]
    rfl

/-- The first character of a text, if it has one, does not belong to a
name in front of it. -/
def EndsName (rest : List Char) : Prop :=
  ∀ c, rest.head? = some c → isNameChar c = false ∧ c ≠ '.'

/-- A name goes as far as its characters do. -/
theorem nameLength_append {xs rest : List Char} (hxs : ∀ c ∈ xs, isNameChar c = true)
    (hrest : EndsName rest) : nameLength (xs ++ rest) = xs.length := by
  induction xs with
  | nil =>
    cases rest with
    | nil => rfl
    | cons c rest =>
      obtain ⟨hname, hpoint⟩ := hrest c rfl
      exact nameLength_eq_zero hname hpoint rest
  | cons x xs ih =>
    rw [List.forall_mem_cons] at hxs
    rw [List.cons_append, nameLength_cons hxs.1, ih hxs.2, List.length_cons]

/-! ### Names of variables -/

/-- An identifier without two low lines in a row, which no text of a
script may have. -/
structure IsVariable (word : String) : Prop extends IsIdentifier word where
  single : hasDunder word.toList = false

namespace IsVariable

variable {word : String} (h : IsVariable word)

include h

/-- A variable is no path. -/
theorem point_notMem : '.' ∉ word.toList := by
  intro hmem
  cases h.chars '.' hmem

/-- A variable has a first character, and one that starts a name. -/
theorem exists_cons : ∃ c cs, word.toList = c :: cs ∧ isNameStart c = true := by
  obtain ⟨c, cs, hword⟩ := List.exists_cons_of_ne_nil
    (fun hnil => h.ne_empty (String.toList_inj.1 hnil))
  have hstart := h.start
  rw [hword] at hstart
  exact ⟨c, cs, hword, hstart⟩

/-- The whole word is one name. -/
theorem namePiece_eq {rest : List Char} (hrest : EndsName rest) (position : Position) :
    namePiece position (word.toList ++ rest) =
      .ok { token := some (.name word), more := word.toList.length - 1 } := by
  have htake : (word.toList ++ rest).take (nameLength (word.toList ++ rest)) = word.toList := by
    rw [nameLength_append h.chars hrest]
    exact List.take_left' rfl
  have hsegments : (segments word.toList).find? hasDunder = none := by
    rw [segments, List.splitOn_eq_singleton h.point_notMem, List.find?_singleton, h.single]
    rfl
  have hpoint : word.toList.contains '.' = false := by
    rw [List.contains_eq_mem, decide_eq_false h.point_notMem]
  unfold namePiece
  simp only [htake, hsegments, hpoint, String.ofList_toList, h.free]
  rfl

/-- In front of what does not belong to it a name is one token. -/
theorem scans_append {rest : List Char} (hrest : EndsName rest) {depth : Nat}
    {tokens : List Token} (hscans : Scans depth rest tokens) :
    Scans depth (word.toList ++ rest) (.name word :: tokens) := by
  obtain ⟨c, cs, hword, hstart⟩ := h.exists_cons
  have hname : isNameChar c = true := h.chars c (hword ▸ List.mem_cons_self)
  have hother {d : Char} (hd : isNameChar d = false) : c ≠ d := by
    rintro rfl
    rw [hname] at hd
    cases hd
  have hpiece : ∀ position, piece .script depth position c (cs ++ rest) =
      .ok { token := some (.name word), more := cs.length } := by
    intro position
    have hwhole := h.namePiece_eq hrest position
    rw [hword, List.cons_append] at hwhole
    rw [piece_of_solid (isBlank_of_isNameChar hname), if_neg (hother rfl),
      if_neg (not_or.2 ⟨hother rfl, hother rfl⟩), isDigit_of_isNameStart hstart,
      if_neg Bool.false_ne_true, if_pos hstart, hwhole]
    rfl
  rw [hword, List.cons_append]
  refine Scans.cons _ ?_ hpiece
  rw [List.drop_left' rfl]
  exact hscans

/-- There is nothing to trim, for it has no blanks. -/
theorem trim_eq : Text.trim word = word := by
  have hsolid := h.isSolid
  rw [Text.trim, Text.trimChars_eq_self, String.ofList_toList]
  · intro c hc
    exact hsolid c (List.mem_of_mem_head? hc)
  · intro c hc
    exact hsolid c (List.mem_of_getLast? hc)

end IsVariable

/-- The map of the variables is named like a variable itself. -/
theorem isVariable_vars : IsVariable "vars" :=
  ⟨⟨by decide +kernel, List.all_eq_true.1 (by rfl), by decide +kernel⟩, by rfl⟩

end Lexer

namespace Script

open TokenStream

/-! ### Scripts of one expression -/

/-- A suffixed expression is an expression. -/
theorem Reads.expression_of_suffixed {ts us : List Located} {e : Expr}
    (h : Reads .suffixed ts e us) : Reads .expression ts e us :=
  .plain (.disjunction (.disjunct (.conjunction (.conjunct (.positive
    (.comparison (.term (.factor (.unsigned (.base h)))) .unlinked))))))

/-- A text compiles to the expression that its tokens read, when that is
all there is and the sandbox has nothing against it. -/
theorem compile_of_reads {source : String} {ts us : List Located} {e : Expr}
    (htokens : tokenize .script (Text.trim source) = .ok ts)
    (hplain : ∀ t ∈ ts, ∀ word, t.token ≠ .reserved word)
    (hreads : Reads .expression ts e us) (hend : (next us).token = .endOfInput)
    (hcheck : e.check = .ok ()) : compile source = .ok { body := [.expression e] } := by
  have hscript : ReadsScript ts [.expression e] :=
    .statement (.expression hreads) (.inl hend) (.done hend)
  have hparse : parse (Text.trim source) = .ok { body := [.expression e] } :=
    (parse_eq_ok_iff htokens hplain _).2 ⟨hscript, List.cons_ne_nil _ _⟩
  have hsafe : Script.check { body := [.expression e] } = .ok () := by
    show ([Statement.expression e].forM Statement.check) = .ok ()
    show (e.check >>= fun _ => pure ()) = .ok ()
    rw [hcheck]
    rfl
  unfold compile
  rw [hparse]
  show (Script.check { body := [.expression e] } >>= fun _ => pure _) = _
  rw [hsafe]
  rfl

end Script

/-! ### The two texts -/

open Lexer

/-- The text of a key of the map `vars`. -/
def varsKeyText (name : String) : String :=
  "vars['" ++ name ++ "']"

/-- A key of the map `vars`. -/
def Expr.varsKey (name : String) (position : Position) : Expr :=
  .subscript (.name "vars") (.literal (.text name)) position

namespace Script

variable {x : String}

/-- The text of a variable is its name. -/
theorem compile_name (hx : IsVariable x) : compile x = .ok { body := [.expression (.name x)] } := by
  have hscans := hx.scans_append (nofun : EndsName []) (scans_nil 0) .start
  rw [List.append_nil] at hscans
  obtain ⟨ts, hscan, htokens⟩ := hscans
  obtain ⟨t, us, rfl, ht, hus⟩ := List.map_eq_cons_iff.1 htokens
  obtain ⟨u, vs, rfl, hu, hvs⟩ := List.map_eq_cons_iff.1 hus
  rw [List.map_eq_nil_iff] at hvs
  subst hvs
  have hreads : Reads .expression [t, u] (.name x) [u] := by
    rw [← Condition.dotted_of_plain hx.point_notMem t.position]
    exact .expression_of_suffixed (.atom (.name ht))
  refine compile_of_reads (by rw [hx.trim_eq]; exact hscan) ?_ hreads hu rfl
  simp [ht, hu]

/-- The five tokens of the text of a key. The bracket that is open
around the quoted text does not change how it is scanned. -/
theorem scans_varsKeyText (hx : IsVariable x) :
    Scans 0 (varsKeyText x).toList
      [.name "vars", .symbol .openBracket, .text x, .symbol .closeBracket, .endOfInput] := by
  have hchars : (varsKeyText x).toList =
      "vars".toList ++ '[' :: '\'' :: (x.toList ++ '\'' :: [']']) := by
    rw [varsKeyText, String.toList_append, String.toList_append]
    simp
  -- No character of a name ends the literal or escapes anything in it.
  have hplain : ∀ c ∈ x.toList, c ≠ '\'' ∧ c ≠ '\\' := by
    intro c hc
    have hname := hx.chars c hc
    constructor
    · rintro rfl
      cases hname
    · rintro rfl
      cases hname
  have hbracket : EndsName ('[' :: '\'' :: (x.toList ++ '\'' :: [']'])) := by
    intro c hc
    cases hc
    decide
  have hclose : Scans 1 [']'] [.symbol .closeBracket, .endOfInput] :=
    Scans.cons 0 (scans_nil 0) fun _ => rfl
  have htext : Scans 1 ('\'' :: (x.toList ++ '\'' :: [']']))
      [.text x, .symbol .closeBracket, .endOfInput] := by
    refine Scans.cons (x.toList.length + 1) ?_ fun position => ?_
    · have hsplit : x.toList ++ '\'' :: [']'] = (x.toList ++ ['\'']) ++ [']'] := by simp
      rw [hsplit, List.drop_left' (by simp)]
      exact hclose
    · show textPiece '\'' position _ = _
      rw [textPiece, textBody?_plain hplain]
      show Except.ok _ = _
      rw [String.ofList_toList]
  rw [hchars]
  exact isVariable_vars.scans_append hbracket (Scans.cons 0 htext fun _ => rfl)

/-- The text of a key is a subscript of `vars`. -/
theorem compile_varsKeyText (hx : IsVariable x) :
    ∃ position, compile (varsKeyText x) =
      .ok { body := [.expression (.varsKey x position)] } := by
  obtain ⟨ts, hscan, htokens⟩ := scans_varsKeyText hx .start
  -- The five tokens are the name, the bracket, the literal, the bracket
  -- that closes it and the end.
  obtain ⟨t, _, rfl, ht, htokens⟩ := List.map_eq_cons_iff.1 htokens
  obtain ⟨u, _, rfl, hu, htokens⟩ := List.map_eq_cons_iff.1 htokens
  obtain ⟨v, _, rfl, hv, htokens⟩ := List.map_eq_cons_iff.1 htokens
  obtain ⟨w, _, rfl, hw, htokens⟩ := List.map_eq_cons_iff.1 htokens
  obtain ⟨last, ts, rfl, hlast, hts⟩ := List.map_eq_cons_iff.1 htokens
  rw [List.map_eq_nil_iff] at hts
  subst hts
  have hvars : Reads .suffixed [t, u, v, w, last] (.name "vars") [u, v, w, last] := by
    rw [← Condition.dotted_of_plain isVariable_vars.point_notMem t.position]
    exact .atom (.name ht)
  have hkey : Reads .expression [v, w, last] (.literal (.text x)) [w, last] :=
    .expression_of_suffixed (.atom (.literal (by rw [hv]; rfl)))
  have hreads : Reads .expression [t, u, v, w, last] (.varsKey x u.position) [last] :=
    .expression_of_suffixed (.subscript hvars hu hkey hw)
  -- Neither end of the text is a blank.
  have htrim : Text.trim (varsKeyText x) = varsKeyText x := by
    rw [Text.trim, Text.trimChars_eq_self, String.ofList_toList]
    · intro c hc
      rw [varsKeyText, String.toList_append, String.toList_append] at hc
      cases hc
      rfl
    · intro c hc
      have hchars : (varsKeyText x).toList = ("vars['" ++ x ++ "'").toList ++ [']'] := by
        simp [varsKeyText]
      rw [hchars, List.getLast?_concat] at hc
      cases hc
      rfl
  refine ⟨u.position, compile_of_reads (by rw [htrim]; exact hscan) ?_ hreads hlast rfl⟩
  simp [ht, hu, hv, hw, hlast]

end Script

end CrapsStrategy
