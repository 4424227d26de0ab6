import CrapsStrategy.Proofs.Decimal.Reader
import CrapsStrategy.Proofs.Rule.Step
import CrapsStrategy.Proofs.Script.Spacing

/-!
# `CrapsStrategy.Proofs.Rule.Setvar`: variables set by a text

The text of a `setvar` step has two names in a row, so it is no script
and is read by its words. The words after the variable are joined with
single spaces again, which are the blanks of the text squeezed. So the
value that is stored is that of the squeezed text, and that of the text
itself where its literals are even (`run_setvar_text`).
-/

set_option autoImplicit false

namespace CrapsStrategy

open TokenStream

/-! ### Names in front of a text -/

namespace Lexer

/-- A name without points that is no word of the language. -/
structure IsIdentifier (word : String) : Prop where
  start : word.toList.head?.any isNameStart = true
  chars : ∀ c ∈ word.toList, isNameChar c = true
  free : wordToken word = .name word

variable {word : String} {rest : List Char}

/-- No name starts with a digit. -/
theorem isDigit_of_isNameStart {c : Char} (h : isNameStart c = true) :
    Text.isDigit c = false := by
  rw [← Bool.not_eq_true]
  intro hdigit
  simp only [Text.isDigit, isNameStart, Text.isLetter, Char.le_def, UInt32.le_iff_toNat_le,
    Bool.or_eq_true, Bool.and_eq_true, decide_eq_true_eq, beq_iff_eq] at h hdigit
  have hnine : ('9' : Char).val.toNat = 57 := rfl
  have hupperA : ('A' : Char).val.toNat = 65 := rfl
  have hlowerA : ('a' : Char).val.toNat = 97 := rfl
  rcases h with (hlower | hupper) | rfl
  · omega
  · omega
  · revert hdigit
    decide

/-- A name ends at a space. -/
theorem nameLength_append_space {xs : List Char} (h : ∀ c ∈ xs, isNameChar c = true) :
    nameLength (xs ++ ' ' :: rest) = xs.length := by
  induction xs with
  | nil => exact nameLength_eq_zero rfl (by decide) rest
  | cons x xs ih =>
    rw [List.forall_mem_cons] at h
    rw [List.cons_append, nameLength_cons h.1, ih h.2, List.length_cons]

namespace IsIdentifier

/-- An identifier has no blank in it. -/
theorem isSolid (h : IsIdentifier word) : Text.IsSolid word.toList := fun c hc =>
  isBlank_of_isNameChar (h.chars c hc)

/-- An identifier has a first character. -/
theorem ne_empty (h : IsIdentifier word) : word ≠ "" := by
  rintro rfl
  cases h.start

/-- The piece of a name with a space after it. -/
theorem piece_eq (h : IsIdentifier word) {c : Char} {cs : List Char} (hword : word.toList = c :: cs)
    {depth : Nat} {position : Position} {p : Piece}
    (hp : piece .script depth position c (cs ++ ' ' :: rest) = .ok p) :
    p = { token := some (.name word), more := cs.length } := by
  have hstart : isNameStart c = true := by simpa [hword] using h.start
  have hname : isNameChar c = true := h.chars c (hword ▸ List.mem_cons_self)
  have hlength : nameLength (c :: (cs ++ ' ' :: rest)) = (c :: cs).length :=
    nameLength_append_space (hword ▸ h.chars)
  have hpath : (c :: (cs ++ ' ' :: rest)).take (c :: cs).length = c :: cs :=
    List.take_left' rfl
  have hpoint : '.' ∉ c :: cs := fun hmem => by
    cases h.chars '.' (hword ▸ hmem)
  have hother {d : Char} (hd : isNameChar d = false) : c ≠ d := by
    rintro rfl
    rw [hname] at hd
    cases hd
  -- It is none of a quote, a digit or a symbol, so a name is read, and no
  -- reserved word.
  rw [piece_of_solid (isBlank_of_isNameChar hname), if_neg (hother rfl),
    if_neg (not_or.2 ⟨hother rfl, hother rfl⟩), isDigit_of_isNameStart hstart,
    if_neg Bool.false_ne_true, if_pos hstart, namePiece, hlength, hpath] at hp
  dsimp only at hp
  split at hp
  · cases hp
  · rw [List.contains_eq_mem, decide_eq_false hpoint, if_neg Bool.false_ne_true, ← hword,
      String.ofList_toList, h.free] at hp
    cases hp
    rw [hword]
    rfl

/-- A name with a space after it is the first token of a text. -/
theorem scan_eq_ok (h : IsIdentifier word) {depth : Nat} {position : Position} {ts : List Located}
    (hscan : scan .script depth position (word.toList ++ ' ' :: rest) = .ok ts) :
    ∃ position' later, ts = ⟨.name word, position⟩ :: later ∧
      scan .script depth position' rest = .ok later := by
  obtain ⟨c, cs, hword⟩ := List.exists_cons_of_ne_nil
    (fun hnil => h.ne_empty (String.toList_inj.1 hnil))
  rw [hword, List.cons_append, scan] at hscan
  obtain ⟨p, hp, hscan⟩ := bind_eq_ok.1 hscan
  obtain ⟨later, hlater, hscan⟩ := bind_eq_ok.1 hscan
  have hpiece := h.piece_eq hword hp
  subst hpiece
  cases hscan
  rw [List.drop_left' rfl, scan_of_blank rfl (by decide)] at hlater
  exact ⟨_, later, rfl, hlater⟩

end IsIdentifier

end Lexer

namespace Script

/-- Two names in a row are no statement. -/
theorem ReadsScript.not_names {t u : Located} {ts : List Located} {body : List Statement}
    {first second : String} (h : ReadsScript (t :: u :: ts) body) (ht : t.token = .name first)
    (hu : u.token = .name second) : False := by
  have hfirst : Reads .expression (t :: u :: ts) (dotted first t.position) (u :: ts) :=
    .plain (.disjunction (.disjunct (.conjunction (.conjunct (.positive
      (.comparison (.term (.factor (.unsigned (.base (.atom (.name ht)))))) .unlinked))))))
  -- A second name binds nothing to the first, so the first alone is the
  -- expression and the statement would have to end there.
  have hend : binding (u :: ts) = 9 := by
    rw [binding, show (next (u :: ts)).token = .name second from hu]
  have hyields := hfirst.yields_expression hend
  cases h with
  | done hend =>
    rw [show (next (t :: u :: ts)).token = .name first from ht] at hend
    cases hend
  | separator hseparator _ =>
    rw [ht] at hseparator
    cases hseparator
  | statement hs hnext _ =>
    cases hs with
    | expression he =>
      obtain ⟨_, rfl⟩ := hyields.unique (he.yields_expression (binding_of_ends hnext))
      rw [show (next (u :: ts)).token = .name second from hu] at hnext
      rcases hnext with hnext | hnext <;> cases hnext
    | assign htarget hassign _ =>
      obtain ⟨_, hrest⟩ :=
        hyields.unique (htarget.yields_expression (binding_of_assignment hassign))
      cases hrest
      rw [hu] at hassign
      cases hassign

/-- A text that starts with two names does not compile. -/
theorem not_compile_names {first second : String} (hfirst : Lexer.IsIdentifier first)
    (hsecond : Lexer.IsIdentifier second) {source more : String}
    (hsource : Text.trim source = first ++ " " ++ (second ++ " " ++ more)) (script : Script) :
    compile source ≠ .ok script := by
  intro h
  obtain ⟨ts, hts, hbody, hcheck⟩ := compile_eq_ok h
  have hchars : (Text.trim source).toList =
      first.toList ++ ' ' :: (second.toList ++ ' ' :: more.toList) := by
    rw [hsource]
    simp
  rw [tokenize, hchars] at hts
  obtain ⟨_, _, rfl, hlater⟩ := hfirst.scan_eq_ok hts
  obtain ⟨_, _, rfl, _⟩ := hsecond.scan_eq_ok hlater
  exact (readsScript_of_check hbody (check_eq_ok.1 hcheck)).not_names rfl rfl

end Script

/-! ### Texts of `setvar` -/

namespace Step

variable {var e : String}

/-- The words of a `setvar` text: the verb, the variable, and those of
the expression. The expression may have any blanks in it, and its words
do not show them. -/
theorem words_setvar (hvar : Lexer.IsIdentifier var) (e : String) :
    Text.words ("setvar " ++ var ++ " " ++ e) = "setvar" :: var :: Text.words e := by
  have htext : "setvar " ++ var ++ " " ++ e = "setvar" ++ " " ++ (var ++ " " ++ e) := by
    rw [← String.append_assoc, ← String.append_assoc]
    rfl
  rw [htext, Text.words_prepend (by decide) (by decide +kernel),
    Text.words_prepend hvar.ne_empty hvar.isSolid]

/-- The two names in front of the value are no statement. -/
theorem assignments?_setvar (hvar : Lexer.IsIdentifier var) (hline : '\n' ∉ e.toList)
    (hwords : Text.words e ≠ []) : assignments? ("setvar " ++ var ++ " " ++ e) = none := by
  rw [Option.eq_none_iff_forall_ne_some]
  intro script h
  obtain ⟨hscript, _⟩ := assignments?_eq_some_iff.1 h
  have hlines : '\n' ∉ ("setvar " ++ var ++ " " ++ e).toList := by
    have hname : '\n' ∉ var.toList := fun hmem => by
      cases hvar.chars '\n' hmem
    simp [hname, hline]
  obtain ⟨script', hscript', _⟩ := Script.compile_squeeze hlines hscript
  have hsetvar : Lexer.IsIdentifier "setvar" :=
    ⟨by decide +kernel, List.all_eq_true.1 (by rfl), by decide +kernel⟩
  have hsource : Text.trim (Text.squeeze (Text.trim ("setvar " ++ var ++ " " ++ e))) =
      "setvar" ++ " " ++ (var ++ " " ++ unwords (Text.words e)) := by
    rw [Text.trim_squeeze_trim, ← Text.unwords_words, words_setvar hvar,
      Text.unwords_cons (List.cons_ne_nil _ _), Text.unwords_cons hwords]
  exact Script.not_compile_names hsetvar hvar hsource script' hscript'

/-- The call that a `setvar` text spells, with the squeezed text as the
amount. -/
def setvarCall (var e : String) : VerbCall :=
  { VerbCall.bare "setvar" with
    var := some var, amount := some (.ofText (Text.squeeze (Text.trim e))) }

/-- A `setvar` text on one line is read as the call. It is no script,
since two names in a row are no statement. -/
theorem read?_setvar (hvar : Lexer.IsIdentifier var) (hline : '\n' ∉ e.toList)
    (hwords : Text.words e ≠ []) :
    read? ("setvar " ++ var ++ " " ++ e) = some (.call (setvarCall var e)) := by
  have hamount : trailingAmount? (var :: Text.words e) =
      some (.ofText (Text.squeeze (Text.trim e))) := by
    obtain ⟨first, rest, hcons⟩ := List.exists_cons_of_ne_nil hwords
    rw [← Text.unwords_words, hcons]
    rfl
  have hverb : Text.lower "setvar" = "setvar" := by
    decide +kernel
  rw [read?_call (assignments?_setvar hvar hline hwords) (words_setvar hvar e), hverb, setvarCall,
    ← hamount]
  rfl

end Step

namespace StepContext

/-- What is stored of a text: a number as it is read, or else the value of
the squeezed text. -/
theorem storedValue_setvarCall (c : StepContext) (store : Store) (var e : String) :
    c.storedValue store (Step.setvarCall var e) =
      match Binary64.read? (Text.trim e) with
      | some x => .ok (literalValue x)
      | none => evaluated (Formula.value (Text.squeeze (Text.trim e)) (c.scope store)) := by
  have hvalue : (Step.setvarCall var e).value = none := rfl
  have hamount : (Step.setvarCall var e).amount =
      some (.ofText (Text.squeeze (Text.trim e))) := rfl
  rw [storedValue, hvalue, hamount, StepAmount.ofText, Text.trim_squeeze_trim,
    Binary64.read?_squeeze]
  cases Binary64.read? (Text.trim e) <;> rfl

/-- A `setvar` step with one expression on one line is no statement. It
stores and reports the value of the squeezed text, or fails as that does
and stores nothing; a number is stored as it is read. The squeezed text
has the same expression, with other blanks in its texts at most, and the
same value where the literals are written with single spaces. -/
theorem run_setvar_text {var e : String} {script : Script} {expr : Expr}
    (hvar : Lexer.IsIdentifier var) (hline : '\n' ∉ e.toList)
    (hscript : Script.compile e = .ok script) (hexpr : script.expression? = some expr) :
    (∃ step, Step.read? ("setvar " ++ var ++ " " ++ e) = some step ∧
      ∀ (c : StepContext) (store : Store), c.verbs.resolve? "setvar" = some .setvar →
        c.run store step = c.stored store var
          (match Binary64.read? (Text.trim e) with
            | some x => .ok (literalValue x)
            | none => evaluated (Formula.value (Text.squeeze (Text.trim e)) (c.scope store)))) ∧
    (∃ script' expr', Script.compile (Text.squeeze (Text.trim e)) = .ok script' ∧
      script'.expression? = some expr' ∧
      expr'.shape Lexer.solidText = expr.shape Lexer.solidText) ∧
    (Lexer.HasEvenLiterals (Text.trim e).toList → ∀ scope,
      Formula.value (Text.squeeze (Text.trim e)) scope = Formula.value e scope) := by
  refine ⟨⟨_, Step.read?_setvar hvar hline (Script.words_of_compile hline hscript), ?_⟩, ?_,
    Script.value_squeeze hline hscript⟩
  · intro c store hverb
    have hcall : (Step.setvarCall var e).var = some var := rfl
    rw [run_setvar hcall hverb, storedValue_setvarCall]
  · obtain ⟨script', hscript', hshape, _⟩ := Script.compile_squeeze hline hscript
    have hexpr' := congrArg Script.expression? hshape
    rw [Script.expression?_shape, Script.expression?_shape, hexpr] at hexpr'
    obtain ⟨expr', hfound, hsame⟩ := Option.map_eq_some_iff.1 hexpr'
    exact ⟨script', expr', hscript', hfound, hsame⟩

/-! ### Two values -/

/-- The variable of both examples is a name. -/
theorem isIdentifier_note : Lexer.IsIdentifier "note" :=
  ⟨by decide +kernel, List.all_eq_true.1 (by rfl), by decide +kernel⟩

/-- A literal with two spaces in a row. -/
def unevenText : String :=
  "'hot  streak'"

/-- A text in quotes is the script of that text. -/
theorem compile_quoted {source : String} (s : String) (last : Position)
    (htokens : tokenize .script (Text.trim source) =
      .ok [⟨.text s, ⟨1, 1⟩⟩, ⟨.endOfInput, last⟩]) :
    Script.compile source = .ok { body := [.expression (.literal (.text s))] } := by
  refine (Script.compile_eq_ok_iff htokens).2 ⟨?_, rfl⟩
  with_unfolding_all rfl

/-- A text with two spaces in a row is stored with one. -/
theorem run_setvar_uneven :
    Lexer.IsIdentifier "note" ∧ '\n' ∉ unevenText.toList ∧
      (∃ script expr, Script.compile unevenText = .ok script ∧ script.expression? = some expr) ∧
      Binary64.read? unevenText = none ∧
      Formula.value unevenText (comeout.scope tenUnits) = .ok (.text "hot  streak") ∧
      ∃ step, Step.read? ("setvar " ++ "note" ++ " " ++ unevenText) = some step ∧
        comeout.run tenUnits step = comeout.stored tenUnits "note" (.ok (.text "hot streak")) ∧
        comeout.run tenUnits step ≠ comeout.stored tenUnits "note" (.ok (.text "hot  streak")) := by
  have hline : '\n' ∉ unevenText.toList := by
    simp [unevenText]
  have hnumber : Binary64.read? (Text.trim unevenText) = none := by
    decide +kernel
  have hwords : Text.words unevenText ≠ [] := by
    decide +kernel
  -- The step evaluates the squeezed text, which has lost one of the spaces
  -- inside the literal.
  have hsqueezed : Formula.value (Text.squeeze (Text.trim unevenText)) (comeout.scope tenUnits) =
      .ok (.text "hot streak") := by
    have hcompile : Script.compile (Text.squeeze (Text.trim unevenText)) = .ok _ :=
      compile_quoted "hot streak" ⟨1, 13⟩ (by decide +kernel)
    rw [Formula.value_of_compile hcompile]
    rfl
  have hrun : comeout.run tenUnits (.call (Step.setvarCall "note" unevenText)) =
      comeout.stored tenUnits "note" (.ok (.text "hot streak")) := by
    have hvar : (Step.setvarCall "note" unevenText).var = some "note" := rfl
    rw [run_setvar hvar (by decide +kernel), storedValue_setvarCall, hnumber]
    dsimp only
    rw [hsqueezed]
    rfl
  have hvalue : Formula.value unevenText (comeout.scope tenUnits) = .ok (.text "hot  streak") := by
    have hcompile : Script.compile unevenText = .ok _ :=
      compile_quoted "hot  streak" ⟨1, 14⟩ (by decide +kernel)
    rw [Formula.value_of_compile hcompile]
    rfl
  obtain ⟨script, expr, hscript, hexpr, _⟩ := Formula.of_value_eq_ok hvalue
  refine ⟨isIdentifier_note, hline, ⟨script, expr, hscript, hexpr⟩, by decide +kernel, hvalue, _,
    Step.read?_setvar isIdentifier_note hline hwords, hrun, ?_⟩
  rw [hrun]
  simp [stored, Envelope.setvar]

/-- A choice with more blanks than it needs, but none of them in its
literal. -/
def bonusText : String :=
  "units *   2  if 'hot streak' else  0"

/-- Twice the units, as the literal is true. -/
def bonus : Expr :=
  .ifElse (.literal (.text "hot streak")) (.binary .mul (.name "units") (.literal (.int 2)))
    (.literal (.int 0))

/-- The text compiles to the choice. Its blanks leave no trace. -/
theorem compile_bonusText : Script.compile bonusText = .ok { body := [.expression bonus] } := by
  have htokens : tokenize .script (Text.trim bonusText) =
      .ok [⟨.name "units", ⟨1, 1⟩⟩, ⟨.symbol .times, ⟨1, 7⟩⟩, ⟨.int 2, ⟨1, 11⟩⟩,
        ⟨.keyword .ifThen, ⟨1, 14⟩⟩, ⟨.text "hot streak", ⟨1, 17⟩⟩, ⟨.keyword .otherwise, ⟨1, 30⟩⟩,
        ⟨.int 0, ⟨1, 36⟩⟩, ⟨.endOfInput, ⟨1, 37⟩⟩] := by
    decide +kernel
  refine (Script.compile_eq_ok_iff htokens).2 ⟨?_, rfl⟩
  with_unfolding_all rfl

/-- A text with one space in its literal is stored with the value that it
has. -/
theorem run_setvar_bonus :
    ∃ step, Step.read? ("setvar " ++ "note" ++ " " ++ bonusText) = some step ∧
      comeout.run tenUnits step = comeout.stored tenUnits "note" (.ok (.int 20)) ∧
      Formula.value bonusText (comeout.scope tenUnits) = .ok (.int 20) := by
  have hline : '\n' ∉ bonusText.toList := by
    simp [bonusText]
  have hnumber : Binary64.read? (Text.trim bonusText) = none := by
    decide +kernel
  have hvalue : Formula.value bonusText (comeout.scope tenUnits) = .ok (.int 20) := by
    rw [Formula.value_of_compile compile_bonusText]
    rfl
  have heven : Lexer.HasEvenLiterals (Text.trim bonusText).toList := by
    have hliterals : Lexer.literals (Text.trim bonusText).toList = ["'hot streak'".toList] := by
      decide +kernel
    rw [Lexer.HasEvenLiterals, hliterals, List.forall_mem_singleton]
    decide +kernel
  obtain ⟨⟨step, hstep, hrun⟩, _, hsame⟩ :=
    run_setvar_text isIdentifier_note hline compile_bonusText rfl
  refine ⟨step, hstep, ?_, hvalue⟩
  rw [hrun comeout tenUnits (by decide +kernel), hnumber]
  dsimp only
  rw [hsame heven, hvalue]
  rfl

end StepContext

end CrapsStrategy
