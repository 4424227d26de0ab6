import CrapsStrategy.Proofs.Script.Completeness
import CrapsStrategy.Proofs.Script.Shape
import CrapsStrategy.Proofs.Token.Spacing

/-!
# `CrapsStrategy.Proofs.Script.Spacing`: scripts with other blanks

Tokens that are alike are read as phrases of one shape: the grammar asks
for the texts of no token (`Reads.alike`). So a text on one line compiles
to a script of the same shape when its blanks are squeezed, and with the
same texts where its literals are even (`compile_squeeze`).
-/

set_option autoImplicit false

namespace CrapsStrategy

namespace Script

open TokenStream

variable {f : String → String} {ts ts' us : List Located}

/-! ### Nodes -/

/-- The shape of a node, by its phrase. -/
def Phrase.shape (f : String → String) : {α : Type} → Phrase α → α → α
  | _, .expression, e => e.shape f
  | _, .disjunction, e => e.shape f
  | _, .disjuncts, es => Expr.shapeAll f es
  | _, .conjunction, e => e.shape f
  | _, .conjuncts, es => Expr.shapeAll f es
  | _, .negation, e => e.shape f
  | _, .comparison, e => e.shape f
  | _, .links, others => Expr.shapeOthers f others
  | _, .sum, e => e.shape f
  | _, .product, e => e.shape f
  | _, .factor, e => e.shape f
  | _, .power, e => e.shape f
  | _, .suffixed, e => e.shape f
  | _, .sequence _, es => Expr.shapeAll f es
  | _, .atom, e => e.shape f

/-- Joining asks how many operands there are, and the shapes are as
many. -/
theorem shape_joined (op : LogicalOp) (es : List Expr) :
    (joined op es).shape f = joined op (Expr.shapeAll f es) := by
  match es with
  | [] => rfl
  | [e] => rfl
  | e :: e' :: es => rfl

/-- Operands of one shape are joined to one shape. -/
theorem shape_joined_congr {op : LogicalOp} {es es' : List Expr}
    (h : Expr.shapeAll f es' = Expr.shapeAll f es) :
    (joined op es').shape f = (joined op es).shape f := by
  rw [shape_joined, shape_joined, h]

/-- A chain asks whether there are comparisons at all, and the shapes do
not change that. -/
theorem shape_chained (first : Expr) (others : List (Comparison × Expr)) :
    (chained first others).shape f = chained (first.shape f) (Expr.shapeOthers f others) := by
  cases others <;> rfl

/-- Expressions of one shape are chained to one shape. -/
theorem shape_chained_congr {first first' : Expr} {others others' : List (Comparison × Expr)}
    (hfirst : first'.shape f = first.shape f)
    (hothers : Expr.shapeOthers f others' = Expr.shapeOthers f others) :
    (chained first' others').shape f = (chained first others).shape f := by
  rw [shape_chained, shape_chained, hfirst, hothers]

/-- Members of one shape have members of one shape, wherever they stand. -/
theorem shape_foldl_member {e e' : Expr} (h : e'.shape f = e.shape f) (members : List String)
    (position position' : Position) :
    (members.foldl (fun e member => Expr.member e member position') e').shape f =
      (members.foldl (fun e member => Expr.member e member position) e).shape f := by
  induction members generalizing e e' with
  | nil => exact h
  | cons member members ih => exact ih (by rw [Expr.shape, Expr.shape, h])

/-- A path has one shape everywhere. -/
theorem shape_dotted (path : String) (position position' : Position) :
    (dotted path position').shape f = (dotted path position).shape f := by
  unfold dotted
  split
  · rfl
  · exact shape_foldl_member rfl _ _ _

/-! ### Phrases -/

/-- A comparison is written in symbols and keywords, none of which is a
text. -/
theorem Marks.alike {op : Comparison} (h : Marks ts op us) (hts : AlikeUpTo f ts ts') :
    ∃ us', Marks ts' op us' ∧ AlikeUpTo f us us' := by
  cases h with
  | symbol ht =>
    obtain ⟨_, _, rfl, ht, hts⟩ := hts.of_eq_some ht fun _ => rfl
    exact ⟨_, .symbol ht, hts⟩
  | isIn ht =>
    obtain ⟨_, _, rfl, ht, hts⟩ := hts.of_token ht nofun
    exact ⟨_, .isIn ht, hts⟩
  | notIn ht hu =>
    obtain ⟨_, _, rfl, ht, hts⟩ := hts.of_token ht nofun
    obtain ⟨_, _, rfl, hu, hts⟩ := hts.of_token hu nofun
    exact ⟨_, .notIn ht hu, hts⟩

/-- Alike literals have values that are alike. -/
theorem literal?_of_mapText {token other : Token} {v : Value}
    (h : token.mapText f = other.mapText f) (ht : token.literal? = some v) :
    ∃ v', other.literal? = some v' ∧ v'.mapText f = v.mapText f := by
  by_cases htext : ∃ s, token = .text s
  · obtain ⟨s, rfl⟩ := htext
    cases ht
    cases other with
    | text s' => exact ⟨_, rfl, congrArg Value.text (Token.text.inj h).symm⟩
    | _ => cases h
  · rw [Token.eq_of_mapText h fun s hs => htext ⟨s, hs⟩]
    exact ⟨v, ht, rfl⟩

/-- Tokens that are alike are read as the same phrase, with a node of one
shape. -/
theorem Reads.alike {α : Type} {phrase : Phrase α} {node : α} (h : Reads phrase ts node us)
    (hts : AlikeUpTo f ts ts') :
    ∃ node' us', Reads phrase ts' node' us' ∧ phrase.shape f node' = phrase.shape f node ∧
      AlikeUpTo f us us' := by
  -- Induction over the grammar. Each rule reads the alike tokens by itself
  -- again: a token the rule names is the same on both sides.
  induction h generalizing ts' with
  | plain _ ih =>
    obtain ⟨_, _, he, hshape, hus⟩ := ih hts
    exact ⟨_, _, .plain he, hshape, hus⟩
  | choice _ ht _ hu _ ihbody ihtest ihotherwise =>
    obtain ⟨_, _, hbody, hbodyShape, hts⟩ := ihbody hts
    obtain ⟨_, _, rfl, ht, hts⟩ := hts.of_token ht nofun
    obtain ⟨_, _, htest, htestShape, hts⟩ := ihtest hts
    obtain ⟨_, _, rfl, hu, hts⟩ := hts.of_token hu nofun
    obtain ⟨_, _, hotherwise, hotherwiseShape, hts⟩ := ihotherwise hts
    refine ⟨_, _, .choice hbody ht htest hu hotherwise, ?_, hts⟩
    show Expr.ifElse _ _ _ = Expr.ifElse _ _ _
    exact congr (congrArg₂ Expr.ifElse htestShape hbodyShape) hotherwiseShape
  | disjunction _ ih =>
    obtain ⟨_, _, hes, hshape, hus⟩ := ih hts
    exact ⟨_, _, .disjunction hes, shape_joined_congr hshape, hus⟩
  | disjunct _ ih =>
    obtain ⟨_, _, he, hshape, hus⟩ := ih hts
    exact ⟨_, _, .disjunct he, congrArg (fun e => [e]) hshape, hus⟩
  | or _ ht _ ihfirst ihothers =>
    obtain ⟨_, _, he, hfirst, hts⟩ := ihfirst hts
    obtain ⟨_, _, rfl, ht, hts⟩ := hts.of_token ht nofun
    obtain ⟨_, _, hes, hothers, hus⟩ := ihothers hts
    exact ⟨_, _, .or he ht hes, congrArg₂ List.cons hfirst hothers, hus⟩
  | conjunction _ ih =>
    obtain ⟨_, _, hes, hshape, hus⟩ := ih hts
    exact ⟨_, _, .conjunction hes, shape_joined_congr hshape, hus⟩
  | conjunct _ ih =>
    obtain ⟨_, _, he, hshape, hus⟩ := ih hts
    exact ⟨_, _, .conjunct he, congrArg (fun e => [e]) hshape, hus⟩
  | and _ ht _ ihfirst ihothers =>
    obtain ⟨_, _, he, hfirst, hts⟩ := ihfirst hts
    obtain ⟨_, _, rfl, ht, hts⟩ := hts.of_token ht nofun
    obtain ⟨_, _, hes, hothers, hus⟩ := ihothers hts
    exact ⟨_, _, .and he ht hes, congrArg₂ List.cons hfirst hothers, hus⟩
  | not ht _ ih =>
    obtain ⟨_, _, rfl, ht, hts⟩ := hts.of_token ht nofun
    obtain ⟨_, _, he, hshape, hus⟩ := ih hts
    exact ⟨_, _, .not ht he, congrArg (Expr.unary .not) hshape, hus⟩
  | positive _ ih =>
    obtain ⟨_, _, he, hshape, hus⟩ := ih hts
    exact ⟨_, _, .positive he, hshape, hus⟩
  | comparison _ _ ihfirst ihothers =>
    obtain ⟨_, _, he, hfirst, hts⟩ := ihfirst hts
    obtain ⟨_, _, hes, hothers, hus⟩ := ihothers hts
    exact ⟨_, _, .comparison he hes, shape_chained_congr hfirst hothers, hus⟩
  | unlinked => exact ⟨_, _, .unlinked, rfl, hts⟩
  | link hop _ _ ihfirst ihothers =>
    obtain ⟨_, hop, hts⟩ := hop.alike hts
    obtain ⟨_, _, he, hfirst, hts⟩ := ihfirst hts
    obtain ⟨_, _, hes, hothers, hus⟩ := ihothers hts
    exact ⟨_, _, .link hop he hes,
      congrArg₂ (fun e others => (_, e) :: others) hfirst hothers, hus⟩
  | term _ ih =>
    obtain ⟨_, _, he, hshape, hus⟩ := ih hts
    exact ⟨_, _, .term he, hshape, hus⟩
  | add _ ht _ ihleft ihright =>
    obtain ⟨_, _, hleft, hleftShape, hts⟩ := ihleft hts
    obtain ⟨_, _, rfl, ht, hts⟩ := hts.of_eq_some ht fun _ => rfl
    obtain ⟨_, _, hright, hrightShape, hus⟩ := ihright hts
    exact ⟨_, _, .add hleft ht hright, congrArg₂ (Expr.binary _) hleftShape hrightShape, hus⟩
  | factor _ ih =>
    obtain ⟨_, _, he, hshape, hus⟩ := ih hts
    exact ⟨_, _, .factor he, hshape, hus⟩
  | multiply _ ht _ ihleft ihright =>
    obtain ⟨_, _, hleft, hleftShape, hts⟩ := ihleft hts
    obtain ⟨_, _, rfl, ht, hts⟩ := hts.of_eq_some ht fun _ => rfl
    obtain ⟨_, _, hright, hrightShape, hus⟩ := ihright hts
    exact ⟨_, _, .multiply hleft ht hright, congrArg₂ (Expr.binary _) hleftShape hrightShape, hus⟩
  | signed ht _ ih =>
    obtain ⟨_, _, rfl, ht, hts⟩ := hts.of_eq_some ht fun _ => rfl
    obtain ⟨_, _, he, hshape, hus⟩ := ih hts
    exact ⟨_, _, .signed ht he, congrArg (Expr.unary _) hshape, hus⟩
  | unsigned _ ih =>
    obtain ⟨_, _, he, hshape, hus⟩ := ih hts
    exact ⟨_, _, .unsigned he, hshape, hus⟩
  | base _ ih =>
    obtain ⟨_, _, he, hshape, hus⟩ := ih hts
    exact ⟨_, _, .base he, hshape, hus⟩
  | power _ ht _ ihbase ihexponent =>
    obtain ⟨_, _, hbase, hbaseShape, hts⟩ := ihbase hts
    obtain ⟨_, _, rfl, ht, hts⟩ := hts.of_token ht nofun
    obtain ⟨_, _, hexponent, hexponentShape, hus⟩ := ihexponent hts
    exact ⟨_, _, .power hbase ht hexponent,
      congrArg₂ (Expr.binary .pow) hbaseShape hexponentShape, hus⟩
  | atom _ ih =>
    obtain ⟨_, _, he, hshape, hus⟩ := ih hts
    exact ⟨_, _, .atom he, hshape, hus⟩
  | call _ ht _ ihfunction iharguments =>
    obtain ⟨_, _, he, hfunction, hts⟩ := ihfunction hts
    obtain ⟨_, _, rfl, ht, hts⟩ := hts.of_token ht nofun
    obtain ⟨_, _, hes, harguments, hus⟩ := iharguments hts
    exact ⟨_, _, .call he ht hes,
      congrArg₂ (fun e es => Expr.call e es .start) hfunction harguments, hus⟩
  | subscript _ ht _ hu ihcontainer ihindex =>
    obtain ⟨_, _, he, hcontainer, hts⟩ := ihcontainer hts
    obtain ⟨_, _, rfl, ht, hts⟩ := hts.of_token ht nofun
    obtain ⟨_, _, hkey, hindex, hts⟩ := ihindex hts
    obtain ⟨_, _, rfl, hu, hus⟩ := hts.of_token hu nofun
    exact ⟨_, _, .subscript he ht hkey hu,
      congrArg₂ (fun e key => Expr.subscript e key .start) hcontainer hindex, hus⟩
  | close ht =>
    obtain ⟨_, _, rfl, ht, hus⟩ := hts.of_token ht nofun
    exact ⟨_, _, .close ht, rfl, hus⟩
  | last _ ht ih =>
    obtain ⟨_, _, he, hshape, hts⟩ := ih hts
    obtain ⟨_, _, rfl, ht, hus⟩ := hts.of_token ht nofun
    exact ⟨_, _, .last he ht, congrArg (fun e => [e]) hshape, hus⟩
  | item _ ht _ ihfirst ihothers =>
    obtain ⟨_, _, he, hfirst, hts⟩ := ihfirst hts
    obtain ⟨_, _, rfl, ht, hts⟩ := hts.of_token ht nofun
    obtain ⟨_, _, hes, hothers, hus⟩ := ihothers hts
    exact ⟨_, _, .item he ht hes, congrArg₂ List.cons hfirst hothers, hus⟩
  | literal ht =>
    -- The one place where the tokens may differ, in the text of a literal.
    obtain ⟨_, _, rfl, htoken, hus⟩ := hts.of_cons
    obtain ⟨_, ht, hvalue⟩ := literal?_of_mapText htoken ht
    exact ⟨_, _, .literal ht, congrArg Expr.literal hvalue, hus⟩
  | name ht =>
    obtain ⟨_, _, rfl, ht, hus⟩ := hts.of_token ht nofun
    exact ⟨_, _, .name ht, shape_dotted _ _ _, hus⟩
  | unit ht hu =>
    obtain ⟨_, _, rfl, ht, hts⟩ := hts.of_token ht nofun
    obtain ⟨_, _, rfl, hu, hus⟩ := hts.of_token hu nofun
    exact ⟨_, _, .unit ht hu, rfl, hus⟩
  | group ht _ hu ih =>
    obtain ⟨_, _, rfl, ht, hts⟩ := hts.of_token ht nofun
    obtain ⟨_, _, he, hshape, hts⟩ := ih hts
    obtain ⟨_, _, rfl, hu, hus⟩ := hts.of_token hu nofun
    exact ⟨_, _, .group ht he hu, hshape, hus⟩
  | tuple ht _ hu _ ihfirst ihothers =>
    obtain ⟨_, _, rfl, ht, hts⟩ := hts.of_token ht nofun
    obtain ⟨_, _, he, hfirst, hts⟩ := ihfirst hts
    obtain ⟨_, _, rfl, hu, hts⟩ := hts.of_token hu nofun
    obtain ⟨_, _, hes, hothers, hus⟩ := ihothers hts
    exact ⟨_, _, .tuple ht he hu hes,
      congrArg Expr.tuple (congrArg₂ List.cons hfirst hothers), hus⟩
  | list ht _ ih =>
    obtain ⟨_, _, rfl, ht, hts⟩ := hts.of_token ht nofun
    obtain ⟨_, _, hes, hshape, hus⟩ := ih hts
    exact ⟨_, _, .list ht hes, congrArg Expr.list hshape, hus⟩

/-! ### Statements -/

/-- A statement is read from tokens that are alike, with one shape. -/
theorem ReadsStatement.alike {s : Statement} (h : ReadsStatement ts s us)
    (hts : AlikeUpTo f ts ts') :
    ∃ s' us', ReadsStatement ts' s' us' ∧ s'.shape f = s.shape f ∧ AlikeUpTo f us us' := by
  cases h with
  | expression he =>
    obtain ⟨_, _, he, hshape, hus⟩ := he.alike hts
    exact ⟨_, _, .expression he, congrArg Statement.expression hshape, hus⟩
  | assign htarget ht hvalue =>
    obtain ⟨_, _, htarget, htargetShape, hts⟩ := htarget.alike hts
    obtain ⟨_, _, rfl, ht, hts⟩ := hts.of_eq_some ht fun _ => rfl
    obtain ⟨_, _, hvalue, hvalueShape, hus⟩ := hvalue.alike hts
    exact ⟨_, _, .assign htarget ht hvalue,
      congrArg₂ (fun target value => Statement.assign target _ value .start)
        htargetShape hvalueShape, hus⟩

/-- Separators are no texts, so tokens that are alike have them at the
same places. -/
theorem AlikeUpTo.isSeparator (hts : AlikeUpTo f ts ts')
    (h : isSeparator (next ts).token = true) : isSeparator (next ts').token = true := by
  rcases isSeparator_iff.1 h with hline | hsemicolon
  · exact isSeparator_iff.2 (.inl (hts.next_token hline nofun))
  · exact isSeparator_iff.2 (.inr (hts.next_token hsemicolon nofun))

/-- A script is read from tokens that are alike, with one shape. -/
theorem ReadsScript.alike {body : List Statement} (h : ReadsScript ts body)
    (hts : AlikeUpTo f ts ts') :
    ∃ body', ReadsScript ts' body' ∧
      body'.map (Statement.shape f) = body.map (Statement.shape f) := by
  induction h generalizing ts' with
  | done hend => exact ⟨[], .done (hts.next_token hend nofun), rfl⟩
  | separator ht _ ih =>
    have hseparator := AlikeUpTo.isSeparator hts ht
    obtain ⟨_, _, rfl, _, hts⟩ := hts.of_cons
    obtain ⟨_, hbody, hshape⟩ := ih hts
    exact ⟨_, .separator hseparator hbody, hshape⟩
  | statement hs hnext _ ih =>
    obtain ⟨_, _, hs, hsShape, hts⟩ := hs.alike hts
    obtain ⟨_, hbody, hshape⟩ := ih hts
    refine ⟨_, .statement hs ?_ hbody, congrArg₂ List.cons hsShape hshape⟩
    exact hnext.imp (fun hend => hts.next_token hend nofun) (AlikeUpTo.isSeparator hts)

/-! ### Texts -/

/-- A text compiles to the safe script of its tokens. -/
theorem compile_eq_ok_iff {source : String} (hts : tokenize .script (Text.trim source) = .ok ts)
    {script : Script} :
    compile source = .ok script ↔ ofTokens ts = .ok script ∧ script.check = .ok () := by
  rw [compile, parse, hts]
  constructor
  · intro h
    obtain ⟨parsed, hparsed, h⟩ := bind_eq_ok.1 h
    obtain ⟨_, hcheck, h⟩ := bind_eq_ok.1 h
    cases h
    exact ⟨hparsed, hcheck⟩
  · rintro ⟨hparsed, hcheck⟩
    exact bind_eq_ok.2 ⟨script, hparsed, bind_eq_ok.2 ⟨(), hcheck, rfl⟩⟩

/-- Tokens that are alike make scripts of one shape. -/
theorem compile_of_alike {source other : String} {script : Script}
    (hts : tokenize .script (Text.trim source) = .ok ts)
    (hts' : tokenize .script (Text.trim other) = .ok ts') (halike : AlikeUpTo f ts ts')
    (h : compile source = .ok script) :
    ∃ script', compile other = .ok script' ∧ script'.shape f = script.shape f := by
  obtain ⟨hparsed, hcheck⟩ := (compile_eq_ok_iff hts).1 h
  obtain ⟨hbody, hne⟩ := ofTokens_eq_ok_iff.1 hparsed
  obtain ⟨body, hreads, hshape⟩ :=
    (readsScript_of_check hbody (check_eq_ok.1 hcheck)).alike halike
  have hscript : shape f { body } = script.shape f := congrArg Script.mk hshape
  have hne' : body ≠ [] := by
    rintro rfl
    exact hne (List.map_eq_nil_iff.1 hshape.symm)
  have hcheck' : check { body } = .ok () := by
    rw [← check_shape_eq_ok (f := f), hscript, check_shape_eq_ok]
    exact hcheck
  have hparsed' : ofTokens ts' = .ok { body } :=
    ofTokens_eq_ok_iff.2 ⟨hreads.statements_eq, hne'⟩
  exact ⟨{ body }, (compile_eq_ok_iff hts').2 ⟨hparsed', hcheck'⟩, hscript⟩

/-- A text on one line that compiles does so when its blanks are squeezed,
to a script that has other blanks in its texts at most, and the same
texts where its literals are written with single spaces. -/
theorem compile_squeeze {source : String} {script : Script}
    (hline : '\n' ∉ source.toList) (h : compile source = .ok script) :
    ∃ script', compile (Text.squeeze (Text.trim source)) = .ok script' ∧
      script'.shape Lexer.solidText = script.shape Lexer.solidText ∧
      (Lexer.HasEvenLiterals (Text.trim source).toList → script'.shape id = script.shape id) := by
  obtain ⟨ts, hts, _, _⟩ := compile_eq_ok h
  obtain ⟨us, hus, halike, hsame⟩ :=
    tokenize_squeeze (fun hmem => hline (Text.mem_of_mem_trim hmem)) hts
  rw [← Text.trim_squeeze_trim] at hus
  obtain ⟨script', hscript', hshape⟩ := compile_of_alike hts hus halike h
  refine ⟨script', hscript', hshape, fun heven => ?_⟩
  obtain ⟨script'', hscript'', hshape'⟩ := compile_of_alike hts hus (hsame heven) h
  rw [hscript'] at hscript''
  cases hscript''
  exact hshape'

/-- A text with even literals has the value of the squeezed text. -/
theorem value_squeeze {source : String} {script : Script}
    (hline : '\n' ∉ source.toList) (h : compile source = .ok script)
    (heven : Lexer.HasEvenLiterals (Text.trim source).toList) (scope : Scope) :
    Formula.value (Text.squeeze (Text.trim source)) scope = Formula.value source scope := by
  obtain ⟨script', hscript', _, hshape⟩ := compile_squeeze hline h
  obtain ⟨_, _, _, hcheck⟩ := compile_eq_ok h
  obtain ⟨_, _, _, hcheck'⟩ := compile_eq_ok hscript'
  rw [Formula.value_of_compile h, Formula.value_of_compile hscript',
    value_eq_of_shape hcheck hcheck' (hshape heven)]

/-- A text that compiles has words. -/
theorem words_of_compile {source : String} {script : Script}
    (hline : '\n' ∉ source.toList) (h : compile source = .ok script) : Text.words source ≠ [] := by
  intro hwords
  obtain ⟨script', hscript', _⟩ := compile_squeeze hline h
  rw [← Text.unwords_words, hwords] at hscript'
  have hempty : compile "" = .error (.syntaxAt .start .emptyScript) := by
    with_unfolding_all rfl
  rw [show Step.unwords [] = "" from rfl, hempty] at hscript'
  cases hscript'

end Script

end CrapsStrategy
