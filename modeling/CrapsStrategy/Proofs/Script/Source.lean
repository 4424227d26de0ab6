import CrapsStrategy.Formula
import CrapsStrategy.Proofs.Script.Grammar
import CrapsStrategy.Proofs.Script.Sandbox
import CrapsStrategy.Proofs.Token.Lexer

/-!
# `CrapsStrategy.Proofs.Script.Source`: texts that compile

A script that passes the check has lost the words that it was written
with. `Reads.plainToEnd` goes back to them along the grammar: a safe
phrase is written without reserved words and dotted names, and so is a
safe script up to the end of its text. With what the lexer says of
names, `allowed_of_compile` has the tokens and the tree of every text
that compiles.
-/

set_option autoImplicit false

namespace CrapsStrategy

namespace Token

/-- A token without a reserved word or a dotted name. -/
def Plain : Token → Prop
  | reserved _ => False
  | name path => '.' ∉ path.toList
  | _ => True

variable {token : Token}

/-- A keyword is plain. -/
theorem plain_keyword {word : Keyword} (h : token = .keyword word) : token.Plain := by
  rw [h]
  trivial

/-- A symbol is plain. -/
theorem plain_symbol {s : Symbol} (h : token = .symbol s) : token.Plain := by
  rw [h]
  trivial

/-- A token of a kind that has neither reserved words nor names. -/
theorem plain_of_eq_some {β : Type} {f : Token → Option β} {b : β} (h : f token = some b)
    (hreserved : ∀ word, f (.reserved word) = none) (hname : ∀ path, f (.name path) = none) :
    token.Plain := by
  cases token with
  | reserved word => rw [hreserved] at h; cases h
  | name path => rw [hname] at h; cases h
  | _ => trivial

end Token

namespace Script

open TokenStream

/-! ### Names -/

/-- Members of something that is not safe are not safe either. -/
theorem not_safe_foldl_member {e : Expr} (h : ¬ e.Safe) (members : List String)
    (position : Position) :
    ¬ (members.foldl (fun e member => Expr.member e member position) e).Safe := by
  induction members generalizing e with
  | nil => exact h
  | cons member members ih => exact ih (Expr.not_safe_member e member position)

/-- A point cuts a path in two. -/
theorem segments_of_mem {cs : List Char} (h : '.' ∈ cs) :
    ∃ first second rest, Lexer.segments cs = first :: second :: rest := by
  obtain ⟨front, back, hcs, hfront⟩ := List.eq_append_cons_of_mem h
  have hcut : Lexer.segments cs = front :: Lexer.segments back := by
    rw [hcs]
    exact List.splitOn_append_cons_self_of_not_mem hfront back
  obtain ⟨second, rest, hback⟩ := List.exists_cons_of_ne_nil (List.splitOn_ne_nil '.' back)
  exact ⟨front, second, rest, hcut.trans (congrArg (front :: ·) hback)⟩

/-- What a dotted path is read as is a member, so a safe path is a plain
name. -/
theorem plain_of_safe_dotted {path : String} {position : Position}
    (h : (dotted path position).Safe) : '.' ∉ path.toList := by
  intro hdot
  obtain ⟨first, second, rest, hsegments⟩ := segments_of_mem hdot
  unfold dotted at h
  rw [hsegments] at h
  exact not_safe_foldl_member (Expr.not_safe_member _ _ _) (rest.map String.ofList) position h

/-! ### Tokens of safe phrases -/

/-- The tokens up to the end of the input are plain. -/
def PlainToEnd (ts : List Located) : Prop :=
  ∀ t ∈ ts.takeWhile (fun t => t.token ≠ .endOfInput), t.token.Plain

/-- A plain token may be put in front. -/
theorem PlainToEnd.cons {t : Located} {ts : List Located} (ht : t.token.Plain)
    (hts : PlainToEnd ts) : PlainToEnd (t :: ts) := by
  intro u hu
  rw [List.takeWhile_cons] at hu
  split at hu
  · rcases List.mem_cons.1 hu with hfirst | hlater
    · exact hfirst ▸ ht
    · exact hts u hlater
  · cases hu

/-- Whether the sandbox lets the expressions of a phrase through. -/
def Phrase.Safe : {α : Type} → Phrase α → α → Prop
  | _, .expression, e => e.Safe
  | _, .disjunction, e => e.Safe
  | _, .disjuncts, es => ∀ e ∈ es, e.Safe
  | _, .conjunction, e => e.Safe
  | _, .conjuncts, es => ∀ e ∈ es, e.Safe
  | _, .negation, e => e.Safe
  | _, .comparison, e => e.Safe
  | _, .links, others => ∀ other ∈ others, other.2.Safe
  | _, .sum, e => e.Safe
  | _, .product, e => e.Safe
  | _, .factor, e => e.Safe
  | _, .power, e => e.Safe
  | _, .suffixed, e => e.Safe
  | _, .sequence _, es => ∀ e ∈ es, e.Safe
  | _, .atom, e => e.Safe

/-- A single operand stands for itself, and the check sees it all the
same. -/
theorem safe_of_safe_joined {op : LogicalOp} {es : List Expr} (h : (joined op es).Safe) :
    ∀ e ∈ es, e.Safe := by
  unfold joined at h
  split at h
  · simpa using h
  · exact Expr.safe_logical.1 h

/-- A chain without comparisons stands for its first sum, and the check
sees the parts of every chain. -/
theorem safe_of_safe_chained {first : Expr} {others : List (Comparison × Expr)}
    (h : (chained first others).Safe) : first.Safe ∧ ∀ other ∈ others, other.2.Safe := by
  unfold chained at h
  split at h
  · exact ⟨h, by simp⟩
  · exact Expr.safe_compare.1 h

/-- A comparison is written with symbols and keywords. -/
theorem Marks.plainToEnd {ts us : List Located} {op : Comparison} (h : Marks ts op us)
    (hus : PlainToEnd us) : PlainToEnd ts := by
  cases h with
  | symbol ht => exact hus.cons (Token.plain_of_eq_some ht (fun _ => rfl) fun _ => rfl)
  | isIn ht => exact hus.cons (Token.plain_keyword ht)
  | notIn ht hu => exact (hus.cons (Token.plain_keyword hu)).cons (Token.plain_keyword ht)

open Token in
/-- A safe phrase has plain tokens. -/
theorem Reads.plainToEnd {α : Type} {phrase : Phrase α} {ts us : List Located} {node : α}
    (h : Reads phrase ts node us) (hsafe : phrase.Safe node) (hus : PlainToEnd us) :
    PlainToEnd ts := by
  induction h with
  | plain _ ih => exact ih hsafe hus
  | choice _ ht _ hu _ ihbody ihtest ihotherwise =>
    obtain ⟨htest, hbody, hotherwise⟩ := Expr.safe_ifElse.1 hsafe
    have hrest := (ihotherwise hotherwise hus).cons (plain_keyword hu)
    exact ihbody hbody ((ihtest htest hrest).cons (plain_keyword ht))
  | disjunction _ ih => exact ih (safe_of_safe_joined hsafe) hus
  | disjunct _ ih => exact ih (hsafe _ List.mem_cons_self) hus
  | or _ ht _ ihfirst ihothers =>
    have hothers := ihothers (fun e he => hsafe e (List.mem_cons_of_mem _ he)) hus
    exact ihfirst (hsafe _ List.mem_cons_self) (hothers.cons (plain_keyword ht))
  | conjunction _ ih => exact ih (safe_of_safe_joined hsafe) hus
  | conjunct _ ih => exact ih (hsafe _ List.mem_cons_self) hus
  | and _ ht _ ihfirst ihothers =>
    have hothers := ihothers (fun e he => hsafe e (List.mem_cons_of_mem _ he)) hus
    exact ihfirst (hsafe _ List.mem_cons_self) (hothers.cons (plain_keyword ht))
  | not ht _ ih => exact (ih (Expr.safe_unary.1 hsafe) hus).cons (plain_keyword ht)
  | positive _ ih => exact ih hsafe hus
  | comparison _ _ ihfirst ihothers =>
    obtain ⟨hfirst, hothers⟩ := safe_of_safe_chained hsafe
    exact ihfirst hfirst (ihothers hothers hus)
  | unlinked => exact hus
  | link hop _ _ ihfirst ihothers =>
    have hothers := ihothers (fun other ho => hsafe other (List.mem_cons_of_mem _ ho)) hus
    exact hop.plainToEnd (ihfirst (hsafe _ List.mem_cons_self) hothers)
  | term _ ih => exact ih hsafe hus
  | add _ ht _ ihleft ihright =>
    obtain ⟨hleft, hright⟩ := Expr.safe_binary.1 hsafe
    have hop := plain_of_eq_some ht (fun _ => rfl) fun _ => rfl
    exact ihleft hleft ((ihright hright hus).cons hop)
  | factor _ ih => exact ih hsafe hus
  | multiply _ ht _ ihleft ihright =>
    obtain ⟨hleft, hright⟩ := Expr.safe_binary.1 hsafe
    have hop := plain_of_eq_some ht (fun _ => rfl) fun _ => rfl
    exact ihleft hleft ((ihright hright hus).cons hop)
  | signed ht _ ih =>
    exact (ih (Expr.safe_unary.1 hsafe) hus).cons
      (plain_of_eq_some ht (fun _ => rfl) fun _ => rfl)
  | unsigned _ ih => exact ih hsafe hus
  | base _ ih => exact ih hsafe hus
  | power _ ht _ ihbase ihexponent =>
    obtain ⟨hbase, hexponent⟩ := Expr.safe_binary.1 hsafe
    exact ihbase hbase ((ihexponent hexponent hus).cons (plain_symbol ht))
  | atom _ ih => exact ih hsafe hus
  | call _ ht _ ihfunction iharguments =>
    -- The check does not go into the function, which is a name.
    obtain ⟨⟨text, hname, _⟩, harguments⟩ := Expr.safe_call.1 hsafe
    exact ihfunction (hname ▸ Expr.safe_name text)
      ((iharguments harguments hus).cons (plain_symbol ht))
  | subscript _ ht _ hu ihcontainer ihindex =>
    -- Nor into the key, which is a literal.
    obtain ⟨hindex, hcontainer⟩ := Expr.safe_subscript.1 hsafe
    have hkey := ihindex (Expr.safe_of_isLiteralKey hindex) (hus.cons (plain_symbol hu))
    exact ihcontainer hcontainer (hkey.cons (plain_symbol ht))
  | close ht => exact hus.cons (plain_symbol ht)
  | last _ ht ih => exact ih (hsafe _ List.mem_cons_self) (hus.cons (plain_symbol ht))
  | item _ ht _ ihfirst ihothers =>
    have hothers := ihothers (fun e he => hsafe e (List.mem_cons_of_mem _ he)) hus
    exact ihfirst (hsafe _ List.mem_cons_self) (hothers.cons (plain_symbol ht))
  | literal ht => exact hus.cons (plain_of_eq_some ht (fun _ => rfl) fun _ => rfl)
  | name ht =>
    refine hus.cons ?_
    rw [ht]
    exact plain_of_safe_dotted hsafe
  | unit ht hu => exact (hus.cons (plain_symbol hu)).cons (plain_symbol ht)
  | group ht _ hu ih => exact (ih hsafe (hus.cons (plain_symbol hu))).cons (plain_symbol ht)
  | tuple ht _ hu _ ihfirst ihothers =>
    have hitems := Expr.safe_tuple.1 hsafe
    have hothers := ihothers (fun e he => hitems e (List.mem_cons_of_mem _ he)) hus
    exact (ihfirst (hitems _ List.mem_cons_self) (hothers.cons (plain_symbol hu))).cons
      (plain_symbol ht)
  | list ht _ ih => exact (ih (Expr.safe_list.1 hsafe) hus).cons (plain_symbol ht)

/-! ### Tokens of safe scripts -/

/-- A safe statement has plain tokens, its target among them. -/
theorem ReadsStatement.plainToEnd {ts us : List Located} {s : Statement}
    (h : ReadsStatement ts s us) (hsafe : s.check = .ok ()) (hus : PlainToEnd us) :
    PlainToEnd ts := by
  obtain ⟨hallowed, hexpressions⟩ := Statement.check_eq_ok.1 hsafe
  cases h with
  | expression he => exact he.plainToEnd (hexpressions _ List.mem_cons_self) hus
  | assign htarget ht hvalue =>
    have hrest := hvalue.plainToEnd (hexpressions _ (by simp [Statement.expressions])) hus
    have hop := Token.plain_of_eq_some ht (fun _ => rfl) fun _ => rfl
    exact htarget.plainToEnd (hexpressions _ List.mem_cons_self) (hrest.cons hop)

/-- A safe script has plain tokens. -/
theorem ReadsScript.plainToEnd {ts : List Located} {body : List Statement}
    (h : ReadsScript ts body) (hsafe : ∀ s ∈ body, s.check = .ok ()) : PlainToEnd ts := by
  induction h with
  | @done ts hend =>
    intro t ht
    cases ts with
    | nil => cases ht
    | cons first rest =>
      have hfirst : first.token = .endOfInput := hend
      rw [List.takeWhile_cons, if_neg (by simp [hfirst])] at ht
      cases ht
  | @separator ts t body ht _ ih =>
    refine (ih hsafe).cons ?_
    unfold isSeparator at ht
    split at ht
    · rename_i hnewline
      rw [hnewline]
      trivial
    · rename_i hsemicolon
      exact Token.plain_symbol hsemicolon
    · cases ht
  | statement hs _ _ ih =>
    exact hs.plainToEnd (hsafe _ List.mem_cons_self)
      (ih fun s hmem => hsafe s (List.mem_cons_of_mem _ hmem))

/-- A safe script is read from its tokens: no reserved word stands at the
head of a statement. -/
theorem readsScript_of_check {tokens : List Located} {body : List Statement}
    (h : statements tokens = .ok body) (hsafe : ∀ s ∈ body, s.check = .ok ()) :
    ReadsScript tokens body := by
  refine reads_statements h fun s hs word position hforbidden => ?_
  have hallowed := (Statement.check_eq_ok.1 (hsafe s hs)).1
  rw [hforbidden] at hallowed
  exact hallowed

end Script

/-! ### The source of a script -/

/-- Two low lines in a row. -/
theorem Lexer.hasDunder_iff {cs : List Char} :
    Lexer.hasDunder cs = true ↔ ['_', '_'] <:+: cs := by
  fun_induction Lexer.hasDunder cs with
  | case1 rest => exact ⟨fun _ => ⟨[], rest, rfl⟩, fun _ => rfl⟩
  | case2 first rest hfirst ih =>
    rw [ih, List.infix_cons_iff]
    refine ⟨.inr, fun h => h.resolve_left ?_⟩
    rintro ⟨tail, htail⟩
    cases htail
    exact hfirst tail rfl rfl
  | case3 => simp

/-- What the sandbox allows of a token: no reserved word, no dotted
name, and no name with two low lines in a row. -/
def Token.Allowed : Token → Prop
  | reserved _ => False
  | name path => '.' ∉ path.toList ∧ ¬ ['_', '_'] <:+: path.toList
  | _ => True

/-- A plain token that a text has is allowed. -/
theorem Token.Plain.allowed {token : Token} (h : token.Plain) (hlexed : token.Lexed) :
    token.Allowed := by
  cases token with
  | reserved word => exact h
  | name path =>
    refine ⟨h, fun hdunder => ?_⟩
    have hsegment := hlexed path.toList (by
      rw [Lexer.segments, List.splitOn_eq_singleton h]
      exact List.mem_cons_self)
    rw [Lexer.hasDunder_iff.2 hdunder] at hsegment
    cases hsegment
  | _ => trivial

/-- The value of a text is that of the script it compiles to. -/
theorem Formula.value_of_compile {source : String} {script : Script}
    (h : Script.compile source = .ok script) (scope : Scope) :
    value source scope = script.value scope := by
  rw [value, h]
  rfl

/-- A text with a value is one expression. -/
theorem Formula.of_value_eq_ok {source : String} {scope : Scope} {v : Value}
    (h : value source scope = .ok v) :
    ∃ script e, Script.compile source = .ok script ∧ script.expression? = some e ∧
      e.eval scope = .ok v := by
  obtain ⟨script, hscript, h⟩ := bind_eq_ok.1 h
  unfold Script.value at h
  split at h
  · rename_i e he
    exact ⟨script, e, hscript, he, h⟩
  · cases h

namespace Script

/-- A text that compiles has tokens, they are statements, and the check
passes them. -/
theorem compile_eq_ok {source : String} {script : Script} (h : compile source = .ok script) :
    ∃ tokens, tokenize .script (Text.trim source) = .ok tokens ∧
      statements tokens = .ok script.body ∧ script.check = .ok () := by
  obtain ⟨parsed, hparse, h⟩ := bind_eq_ok.1 h
  obtain ⟨_, hcheck, h⟩ := bind_eq_ok.1 h
  cases h
  obtain ⟨tokens, htokens, hbody⟩ := bind_eq_ok.1 hparse
  obtain ⟨body, hstatements, h⟩ := bind_eq_ok.1 hbody
  refine ⟨tokens, htokens, ?_, hcheck⟩
  split at h
  · cases h
  · cases h
    exact hstatements

/-- A script with a value is one expression and nothing else. -/
theorem body_eq_of_expression? {script : Script} {e : Expr} (h : script.expression? = some e) :
    script.body = [.expression e] := by
  unfold expression? at h
  split at h
  · rename_i hbody
    cases h
    exact hbody
  · cases h

/-- The expression of such a script is contained in it. -/
theorem contains_of_expression? {script : Script} {e : Expr} (h : script.expression? = some e) :
    script.Contains e :=
  ⟨_, body_eq_of_expression? h ▸ List.mem_cons_self, _, List.mem_cons_self, .refl⟩

/-- What a text that compiles is made of. -/
theorem allowed_of_compile {source : String} {script : Script}
    (h : compile source = .ok script) :
    (∃ tokens, tokenize .script (Text.trim source) = .ok tokens ∧
      ∀ t ∈ tokens, t.token.Allowed) ∧
    (∀ s ∈ script.body, s.Allowed) ∧ ∀ e, script.Contains e → e.Allowed := by
  obtain ⟨tokens, htokens, hstatements, hcheck⟩ := compile_eq_ok h
  have hsafe := check_eq_ok.1 hcheck
  have hallowed : ∀ s ∈ script.body, s.Allowed := fun s hs =>
    (Statement.check_eq_ok.1 (hsafe s hs)).1
  refine ⟨⟨tokens, htokens, ?_⟩, hallowed, fun e he => (safe_of_contains hcheck he).allowed⟩
  -- No statement is forbidden, so the tokens before the end are read by the
  -- grammar, which passes over none of them.
  have hreads : ReadsScript tokens script.body :=
    reads_statements hstatements fun s hs word position hforbidden => by
      have h := hallowed s hs
      rw [hforbidden] at h
      exact h
  have hplain := hreads.plainToEnd hsafe
  obtain ⟨init, last, heq, hlexed⟩ := tokenize_eq_ok htokens
  have hinit : (tokens.takeWhile fun t => decide (t.token ≠ .endOfInput)) = init := by
    have hbefore : ∀ t ∈ init, decide (t.token ≠ .endOfInput) = true := by
      intro t ht
      refine decide_eq_true fun hend => ?_
      have h := hlexed t ht
      rw [hend] at h
      exact h
    rw [heq, List.takeWhile_append_of_pos hbefore]
    simp
  intro t ht
  rw [heq] at ht
  rcases List.mem_append.1 ht with hmem | hlast
  · exact (hplain t (hinit ▸ hmem)).allowed (hlexed t hmem)
  · rw [List.mem_singleton.1 hlast]
    trivial

/-- Two assignments, with a key counted from the end, a quoted key, a
choice and two calls. -/
def ladderSource : String :=
  "bet = [5, 10][-1] if streak['wins'] < 2 else max(bet, units * 2)\nunits += round(bet / 5)"

/-- The script compiles, and all in it is allowed. -/
theorem allowed_ladder : ∃ script, compile ladderSource = .ok script ∧ script.body.length = 2 ∧
    (∃ tokens, tokenize .script (Text.trim ladderSource) = .ok tokens ∧
      ∀ t ∈ tokens, t.token.Allowed) ∧
    (∀ s ∈ script.body, s.Allowed) ∧ ∀ e, script.Contains e → e.Allowed := by
  have hcompiles : (compile ladderSource).toOption.map (·.body.length) = some 2 := by
    decide +kernel
  obtain ⟨script, hscript, hlength⟩ := Option.map_eq_some_iff.1 hcompiles
  cases hcompile : compile ladderSource with
  | error fault =>
    rw [hcompile] at hscript
    cases hscript
  | ok compiled =>
    rw [hcompile] at hscript
    cases hscript
    exact ⟨script, rfl, hlength, allowed_of_compile hcompile⟩

end Script

end CrapsStrategy
