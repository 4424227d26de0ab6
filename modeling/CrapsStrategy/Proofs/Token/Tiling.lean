import CrapsStrategy.Proofs.Token.Spelling

/-!
# `CrapsStrategy.Proofs.Token.Tiling`: where the tokens of a text are

Every token but the end of the input takes up a stretch of the text, a
`Tile`: its own characters and no others. `Tiling` says how the tiles
lie in the first characters of a text. They come in order and share no
character, each has the position of its first one, and what is between
them is blank or a comment of a script. In a script a line end is
between them inside brackets only, where it is no token.

The scan lays one tile after the other. A piece that is a token is the
next tile (`Tiling.concat`), any other piece leaves the tiles as they
are (`Tiling.extend`), and by induction over the scan the whole text is
tiled (`exists_tiling_of_scan`). The scan counts its depth in brackets
from token to token; that a bracket is open is told from the tokens
alone (`lt_depthBehind_iff`).
-/

set_option autoImplicit false

namespace CrapsStrategy

open Text

/-! ### Positions -/

namespace Position

/-- The place behind some characters: one line more than they have line
ends, and one column more than they have characters after the last of
these. -/
def behind (cs : List Char) : Position where
  line := 1 + cs.count '\n'
  column := 1 + (cs.rtakeWhile (· ≠ '\n')).length

/-- Places in the order of reading. -/
instance : LT Position :=
  ⟨fun p q => p.line < q.line ∨ p.line = q.line ∧ p.column < q.column⟩

/-- Places are ordered by line and then by column. -/
theorem lt_iff {p q : Position} :
    p < q ↔ p.line < q.line ∨ p.line = q.line ∧ p.column < q.column := Iff.rfl

/-- The order of places is transitive. -/
theorem lt_trans {p q r : Position} (hpq : p < q) (hqr : q < r) : p < r := by
  rw [lt_iff] at *
  omega

/-- A character leads on to a later place. -/
theorem lt_advance (p : Position) (c : Char) : p < p.advance c := by
  rw [lt_iff, advance]
  split
  · exact .inl (Nat.lt_succ_self _)
  · exact .inr ⟨rfl, Nat.lt_succ_self _⟩

/-- One character or more lead on to a later place. -/
theorem lt_advanceBy (p : Position) {cs : List Char} (h : cs ≠ []) : p < p.advanceBy cs := by
  induction cs generalizing p with
  | nil => exact absurd rfl h
  | cons c cs ih =>
    by_cases hnil : cs = []
    · rw [hnil]
      exact p.lt_advance c
    · exact lt_trans (p.lt_advance c) (ih _ hnil)

/-- Behind one more character the place has advanced over it. -/
theorem advance_behind (cs : List Char) (c : Char) :
    (behind cs).advance c = behind (cs ++ [c]) := by
  by_cases hline : c = '\n'
  · subst hline
    simp [behind, advance, Nat.add_assoc]
  · simp [behind, advance, hline, Nat.add_assoc]

/-- The scan moves its position over a piece, and is then behind it. -/
theorem advanceBy_behind (cs ds : List Char) : (behind cs).advanceBy ds = behind (cs ++ ds) := by
  induction ds generalizing cs with
  | nil => rw [List.append_nil]; rfl
  | cons d ds ih =>
    show ((behind cs).advance d).advanceBy ds = _
    rw [advance_behind, ih, List.append_assoc]
    rfl

/-- Places in a text are in the order of its characters. -/
theorem behind_take_lt (text : List Char) {i j : Nat} (hij : i < j) (hj : j ≤ text.length) :
    behind (text.take i) < behind (text.take j) := by
  have hsplit : text.take j = text.take i ++ (text.drop i).take (j - i) := by
    rw [← List.take_add, Nat.add_sub_cancel' hij.le]
  have hne : (text.drop i).take (j - i) ≠ [] := by
    refine List.ne_nil_of_length_pos ?_
    rw [List.length_take, List.length_drop]
    omega
  rw [hsplit, ← advanceBy_behind]
  exact lt_advanceBy _ hne

end Position

/-! ### Brackets -/

namespace Token

/-- Whether a token opens a bracket of either kind. -/
def opens : Token → Bool
  | symbol .openParen | symbol .openBracket => true
  | _ => false

/-- Whether a token closes a bracket of either kind. -/
def closes : Token → Bool
  | symbol .closeParen | symbol .closeBracket => true
  | _ => false

end Token

/-- Whether a bracket is open behind some tokens: from one of them on,
more brackets are opened than closed. -/
def BracketOpen (tokens : List Token) : Prop :=
  ∃ n, (tokens.drop n).countP Token.closes < (tokens.drop n).countP Token.opens

namespace Lexer

/-- How deep in brackets the scan is behind some tokens. -/
def depthBehind (tokens : List Token) : Nat :=
  tokens.foldl (fun depth t => depthAfter depth (some t)) 0

/-- One more token changes the depth once more. -/
theorem depthBehind_concat (tokens : List Token) (t : Token) :
    depthBehind (tokens ++ [t]) = depthAfter (depthBehind tokens) (some t) :=
  List.foldl_concat _ _ _ _

/-- What a token does to the depth, by the kind of bracket that it is.
-/
theorem depthAfter_cases (depth : Nat) (t : Token) :
    (t.opens = true ∧ t.closes = false ∧ depthAfter depth (some t) = depth + 1) ∨
      (t.opens = false ∧ t.closes = true ∧ depthAfter depth (some t) = depth - 1) ∨
      (t.opens = false ∧ t.closes = false ∧ depthAfter depth (some t) = depth) := by
  cases t with
  | symbol s => cases s <;> simp [Token.opens, Token.closes, depthAfter]
  | _ => exact .inr (.inr ⟨rfl, rfl, rfl⟩)

/-- The ends of a longer list, but for the empty one, are the longer
ends. -/
theorem exists_drop_concat {P : List Token → Prop} (hnil : ¬ P []) (tokens : List Token)
    (t : Token) : (∃ n, P ((tokens ++ [t]).drop n)) ↔ ∃ n, P (tokens.drop n ++ [t]) := by
  constructor
  · rintro ⟨n, hn⟩
    by_cases hle : n ≤ tokens.length
    · rw [List.drop_append_of_le_length hle] at hn
      exact ⟨n, hn⟩
    · rw [List.drop_eq_nil_of_le (by simp; omega)] at hn
      exact absurd hn hnil
  · rintro ⟨n, hn⟩
    by_cases hle : n ≤ tokens.length
    · exact ⟨n, by rwa [List.drop_append_of_le_length hle]⟩
    · refine ⟨tokens.length, ?_⟩
      rw [List.drop_eq_nil_of_le (by omega)] at hn
      rwa [List.drop_left]

/-- The scan is deeper than `n` exactly if from some token on that many
more brackets are opened than closed. The depth stops at zero, so it is
not the count over all tokens. -/
theorem lt_depthBehind_iff (n : Nat) (tokens : List Token) : n < depthBehind tokens ↔
    ∃ m, (tokens.drop m).countP Token.closes + n < (tokens.drop m).countP Token.opens := by
  induction tokens using List.reverseRecOn generalizing n with
  | nil => simp [depthBehind]
  | append_singleton tokens t ih =>
    rw [depthBehind_concat, exists_drop_concat (P := fun ts =>
      ts.countP Token.closes + n < ts.countP Token.opens) (by simp) tokens t]
    simp only [List.countP_append, List.countP_singleton]
    obtain ⟨hopens, hcloses, hdepth⟩ | ⟨hopens, hcloses, hdepth⟩ | ⟨hopens, hcloses, hdepth⟩ :=
      depthAfter_cases (depthBehind tokens) t <;> simp only [hopens, hcloses, hdepth]
    · cases n with
      | zero =>
        -- The opening bracket alone is such an end.
        refine iff_of_true (Nat.succ_pos _) ⟨tokens.length, ?_⟩
        rw [List.drop_length]
        decide
      | succ n =>
        rw [Nat.succ_lt_succ_iff, ih]
        exact exists_congr fun m => by simp; omega
    · rw [Nat.lt_sub_iff_add_lt, ih]
      exact exists_congr fun m => by simp; omega
    · rw [ih]
      exact exists_congr fun m => by simp

/-- The scan is in brackets exactly if one is open. -/
theorem depthBehind_pos_iff {tokens : List Token} :
    0 < depthBehind tokens ↔ BracketOpen tokens :=
  lt_depthBehind_iff 0 tokens

end Lexer

/-! ### Tiles -/

/-- A token and the stretch of a text that it takes up, from one offset
up to another. -/
structure Tile extends Located where
  start : Nat
  stop : Nat

/-- Whether no tile has the character at an offset. -/
def IsFree (tiles : List Tile) (i : Nat) : Prop :=
  ∀ tile ∈ tiles, ¬ (tile.start ≤ i ∧ i < tile.stop)

/-- The tokens in front of an offset. -/
def tokensBefore (tiles : List Tile) (i : Nat) : List Token :=
  (tiles.filter fun tile => tile.stop ≤ i).map fun tile => tile.token

/-- Whether a stretch of a text reads as a comment: from `#` up to the
end of the line. -/
structure IsComment (text : List Char) (start stop : Nat) : Prop where
  hash : text[start]? = some '#'
  line : '\n' ∉ text.extract start stop
  ends : text[stop]? = none ∨ text[stop]? = some '\n'

/-- What a character of no tile is, where `bound` characters of a text
are tiled: a blank, which is the end of a line of a script only while a
bracket is open, or part of a comment that no tile meets. -/
inductive Skipped (dialect : Dialect) (text : List Char) (tiles : List Tile) (bound i : Nat) : Prop
  | blank {c : Char} (hc : text[i]? = some c) (hblank : isBlank c = true)
      (hline : dialect = .script → c = '\n' → BracketOpen (tokensBefore tiles i))
  | comment {start stop : Nat} (hdialect : dialect = .script)
      (hcomment : IsComment text start stop) (hstart : start ≤ i) (hstop : i < stop)
      (hbound : stop ≤ bound) (hfree : ∀ j, start ≤ j → j < stop → IsFree tiles j)

/-- How tiles lie in the first `bound` characters of a text. -/
structure Tiling (dialect : Dialect) (text : List Char) (bound : Nat) (tiles : List Tile) :
    Prop where
  apart : tiles.Pairwise fun t u => t.stop ≤ u.start
  within : ∀ tile ∈ tiles, tile.start < tile.stop ∧ tile.stop ≤ bound
  spelled : ∀ tile ∈ tiles, tile.token.IsSpelled (text.extract tile.start tile.stop)
  placed : ∀ tile ∈ tiles, tile.position = .behind (text.take tile.start)
  lineEnds : ∀ tile ∈ tiles, tile.token = .newline →
    dialect = .script ∧ ¬ BracketOpen (tokensBefore tiles tile.start)
  skipped : ∀ i < bound, IsFree tiles i → Skipped dialect text tiles bound i

section

variable {dialect : Dialect} {text : List Char} {tiles : List Tile} {tile : Tile}
  {i bound larger : Nat}

/-- A tile that ends later does not come before. -/
theorem tokensBefore_concat (h : i < tile.stop) :
    tokensBefore (tiles ++ [tile]) i = tokensBefore tiles i := by
  simp [tokensBefore, List.filter_append, Nat.not_le.2 h]

/-- An offset is free of tiles if it is free of the last one, too. -/
theorem isFree_concat :
    IsFree (tiles ++ [tile]) i ↔ IsFree tiles i ∧ ¬ (tile.start ≤ i ∧ i < tile.stop) := by
  simp only [IsFree, List.forall_mem_append, List.forall_mem_singleton]

/-- What was skipped is still skipped when more is tiled. -/
theorem Skipped.mono (h : Skipped dialect text tiles bound i) (hle : bound ≤ larger) :
    Skipped dialect text tiles larger i := by
  cases h with
  | blank hc hblank hline => exact .blank hc hblank hline
  | comment hdialect hcomment hstart hstop hbound hfree =>
    exact .comment hdialect hcomment hstart hstop (hbound.trans hle) hfree

/-- A tile that comes after it leaves a character what it is. -/
theorem Skipped.concat (h : Skipped dialect text tiles bound i) (hi : i < bound)
    (hstart : bound ≤ tile.start) (hne : tile.start < tile.stop) :
    Skipped dialect text (tiles ++ [tile]) bound i := by
  cases h with
  | blank hc hblank hline =>
    refine .blank hc hblank ?_
    rwa [tokensBefore_concat (by omega)]
  | comment hdialect hcomment hbegin hstop hbound hfree =>
    exact .comment hdialect hcomment hbegin hstop hbound fun j hlow hhigh =>
      isFree_concat.2 ⟨hfree j hlow hhigh, by omega⟩

namespace Tiling

/-- Before the first character nothing is tiled. -/
theorem nil (dialect : Dialect) (text : List Char) : Tiling dialect text 0 [] where
  apart := .nil
  within := fun _ h => absurd h List.not_mem_nil
  spelled := fun _ h => absurd h List.not_mem_nil
  placed := fun _ h => absurd h List.not_mem_nil
  lineEnds := fun _ h => absurd h List.not_mem_nil
  skipped := fun _ h => absurd h (Nat.not_lt_zero _)

/-- All tokens are in front of what is not tiled yet. -/
theorem tokensBefore_bound (h : Tiling dialect text bound tiles) :
    tokensBefore tiles bound = tiles.map fun tile => tile.token := by
  rw [tokensBefore, List.filter_eq_self.2 fun tile htile => decide_eq_true (h.within tile htile).2]

/-- More characters of a text are tiled if no tile has them. -/
theorem extend (h : Tiling dialect text bound tiles) (hle : bound ≤ larger)
    (hskipped : ∀ i, bound ≤ i → i < larger → Skipped dialect text tiles larger i) :
    Tiling dialect text larger tiles where
  apart := h.apart
  within := fun tile htile => ⟨(h.within tile htile).1, (h.within tile htile).2.trans hle⟩
  spelled := h.spelled
  placed := h.placed
  lineEnds := h.lineEnds
  skipped := fun i hi hfree => by
    by_cases hold : i < bound
    · exact (h.skipped i hold hfree).mono hle
    · exact hskipped i (Nat.le_of_not_lt hold) hi

/-- One more tile right behind the characters that are tiled. -/
theorem concat (tile : Tile) (h : Tiling dialect text tile.start tiles)
    (hne : tile.start < tile.stop)
    (hspelled : tile.token.IsSpelled (text.extract tile.start tile.stop))
    (hplaced : tile.position = .behind (text.take tile.start))
    (hline : tile.token = .newline →
      dialect = .script ∧ ¬ BracketOpen (tiles.map fun tile => tile.token)) :
    Tiling dialect text tile.stop (tiles ++ [tile]) where
  apart := List.pairwise_append.2 ⟨h.apart, List.pairwise_singleton _ _,
    fun other hother last hlast => List.mem_singleton.1 hlast ▸ (h.within other hother).2⟩
  within := List.forall_mem_append.2
    ⟨fun other hother => ⟨(h.within other hother).1, (h.within other hother).2.trans hne.le⟩,
      List.forall_mem_singleton.2 ⟨hne, Nat.le_refl _⟩⟩
  spelled := List.forall_mem_append.2 ⟨h.spelled, List.forall_mem_singleton.2 hspelled⟩
  placed := List.forall_mem_append.2 ⟨h.placed, List.forall_mem_singleton.2 hplaced⟩
  lineEnds := List.forall_mem_append.2
    ⟨fun other hother hnewline => by
      have hother' := h.within other hother
      rw [tokensBefore_concat (by omega)]
      exact h.lineEnds other hother hnewline,
    List.forall_mem_singleton.2 fun hnewline => by
      rw [tokensBefore_concat hne, h.tokensBefore_bound]
      exact hline hnewline⟩
  skipped := fun i hi hfree => by
    obtain ⟨hold, hlast⟩ := isFree_concat.1 hfree
    -- A character of no tile that is not in the new one was tiled before it.
    have hbefore : i < tile.start := by omega
    exact ((h.skipped i hbefore hold).concat hbefore (Nat.le_refl _) hne).mono hne.le

/-- The tokens stand one after the other, in front of the end. -/
theorem positions (h : Tiling dialect text text.length tiles) :
    (tiles.map Tile.toLocated ++ [(⟨.endOfInput, .behind text⟩ : Located)]).Pairwise
      fun t u => t.position < u.position := by
  rw [List.pairwise_append, List.pairwise_map]
  refine ⟨h.apart.imp_of_mem fun {t u} ht hu htu => ?_, List.pairwise_singleton _ _,
    fun t ht last hlast => ?_⟩
  · have hfirst := h.within t ht
    have hsecond := h.within u hu
    rw [h.placed t ht, h.placed u hu]
    exact Position.behind_take_lt text (by omega) (by omega)
  · obtain ⟨tile, htile, rfl⟩ := List.mem_map.1 ht
    obtain rfl := List.mem_singleton.1 hlast
    have hwithin := h.within tile htile
    have hstart : tile.start < text.length := by omega
    have hlt := Position.behind_take_lt text hstart (Nat.le_refl _)
    rw [List.take_length] at hlt
    rwa [h.placed tile htile]

end Tiling

end

/-! ### The scan -/

/-- The tile of a piece that stands at an offset, if it is a token. -/
def Piece.tiles (p : Piece) (position : Position) (start : Nat) : List Tile :=
  p.token.toList.map fun t => ⟨⟨t, position⟩, start, start + (p.more + 1)⟩

/-- A piece without a token is no tile. -/
theorem Piece.tiles_none (more : Nat) (position : Position) (start : Nat) :
    Piece.tiles ⟨none, more⟩ position start = [] := rfl

namespace Lexer

variable {dialect : Dialect} {depth : Nat} {position : Position} {text before rest : List Char}
  {c : Char} {p : Piece} {tiles : List Tile}

/-- A piece does not go beyond the text. -/
theorem more_le_of_piece (h : piece dialect depth position c rest = .ok p) :
    p.more ≤ rest.length := by
  obtain ⟨t, hspells, _⟩ | ⟨rfl, _⟩ | ⟨rfl, _⟩ := piece_cases h
  · exact hspells.fits
  · exact Nat.zero_le _
  · exact (List.takeWhile_prefix _).length_le

/-- The first character of a piece in the text. -/
theorem getElem?_piece (htext : text = before ++ c :: rest) : text[before.length]? = some c := by
  rw [htext, List.getElem?_append_right (Nat.le_refl _), Nat.sub_self]
  rfl

/-- The characters of a piece in the text. -/
theorem extract_piece (htext : text = before ++ c :: rest) (more : Nat) :
    text.extract before.length (before.length + (more + 1)) = c :: rest.take more := by
  rw [List.extract_eq_take_drop, htext, List.drop_left, Nat.add_sub_cancel_left,
    List.take_succ_cons]

/-- A comment that the scan passes over is one in the text. -/
theorem isComment_of_hash (htext : text = before ++ '#' :: rest) :
    IsComment text before.length
      (before.length + ((rest.takeWhile (· ≠ '\n')).length + 1)) := by
  have htake : rest.take (rest.takeWhile (· ≠ '\n')).length = rest.takeWhile (· ≠ '\n') :=
    (List.prefix_iff_eq_take.1 (List.takeWhile_prefix _)).symm
  refine ⟨getElem?_piece htext, ?_, ?_⟩
  · rw [extract_piece htext, htake, List.mem_cons, not_or]
    refine ⟨by decide, fun hmem => ?_⟩
    simpa using List.mem_takeWhile_imp hmem
  · -- What comes after it is what stopped it, if there is anything.
    have hdrop : rest.drop (rest.takeWhile (· ≠ '\n')).length = rest.dropWhile (· ≠ '\n') := by
      have hsplit := List.take_append_drop (rest.takeWhile (· ≠ '\n')).length rest
      rw [htake] at hsplit
      exact List.append_cancel_left (hsplit.trans List.takeWhile_append_dropWhile.symm)
    have hnext : text[before.length + ((rest.takeWhile (· ≠ '\n')).length + 1)]? =
        (rest.dropWhile (· ≠ '\n')).head? := by
      rw [htext, List.getElem?_append_right (Nat.le_add_right _ _), Nat.add_sub_cancel_left,
        List.getElem?_cons_succ, ← List.head?_drop, hdrop]
    have hstop := List.head?_dropWhile_not (· ≠ '\n') rest
    rw [hnext]
    cases hhead : (rest.dropWhile (· ≠ '\n')).head? with
    | none => exact .inl rfl
    | some d =>
      rw [hhead] at hstop
      right
      simpa using hstop

/-- A piece behind what is tiled is the next tile, or is skipped. -/
theorem tiling_of_piece (h : piece dialect depth position c rest = .ok p)
    (htext : text = before ++ c :: rest) (hposition : position = .behind before)
    (hdepth : depth = depthBehind (tiles.map fun tile => tile.token))
    (htiling : Tiling dialect text before.length tiles) :
    Tiling dialect text (before.length + (p.more + 1))
      (tiles ++ p.tiles position before.length) := by
  obtain ⟨t, hspells, hline⟩ | ⟨rfl, hblank, hline⟩ | ⟨rfl, hscript, rfl⟩ := piece_cases h
  · rw [Piece.tiles, hspells.token]
    refine Tiling.concat ⟨⟨t, position⟩, _, _⟩ htiling (by simp) ?_ ?_ ?_
    · rw [extract_piece htext]
      exact hspells.spelled
    · rw [htext, List.take_left]
      exact hposition
    · intro hnewline
      rw [← depthBehind_pos_iff, ← hdepth, Nat.not_lt, Nat.le_zero]
      exact hline hnewline
  · rw [Piece.tiles_none, List.append_nil]
    refine htiling.extend (Nat.le_add_right _ _) fun i hlow hhigh => ?_
    obtain rfl : i = before.length := Nat.le_antisymm (Nat.lt_succ_iff.1 hhigh) hlow
    refine .blank (getElem?_piece htext) hblank fun hscript hend => ?_
    rw [htiling.tokensBefore_bound, ← depthBehind_pos_iff, ← hdepth]
    exact hline hscript hend
  · rw [Piece.tiles_none, List.append_nil]
    refine htiling.extend (Nat.le_add_right _ _) fun i hlow hhigh => ?_
    refine .comment hscript (isComment_of_hash htext) hlow hhigh (Nat.le_refl _) ?_
    -- All tiles so far end in front of the comment.
    intro j hj _ tile htile
    have hwithin := htiling.within tile htile
    omega

/-- The depth that the scan goes on with is that behind the tiles. -/
theorem depthBehind_append_tiles (start : Nat) :
    depthBehind ((tiles ++ p.tiles position start).map fun tile => tile.token) =
      depthAfter (depthBehind (tiles.map fun tile => tile.token)) p.token := by
  rw [Piece.tiles, List.map_append]
  cases p.token with
  | none => rw [Option.toList_none, List.map_nil, List.map_nil, List.append_nil]; rfl
  | some t => exact depthBehind_concat _ t

/-- The scan of the rest goes on behind what is tiled, and its tokens are
those of more tiles, up to the end of the text. -/
theorem exists_tiling_of_scan {cs : List Char} {tokens : List Located}
    (h : scan dialect depth position cs = .ok tokens) (htext : text = before ++ cs)
    (hposition : position = .behind before)
    (hdepth : depth = depthBehind (tiles.map fun tile => tile.token))
    (htiling : Tiling dialect text before.length tiles) :
    ∃ later : List Tile,
      tokens = later.map Tile.toLocated ++ [⟨.endOfInput, .behind text⟩] ∧
      Tiling dialect text text.length (tiles ++ later) := by
  -- The text stays, and what is tiled of it grows by each piece. Position and depth are
  -- always those behind the tiles, which the hypotheses carry from piece to piece.
  induction depth, position, cs using scan.induct generalizing tokens before tiles with
  | case1 depth position =>
    rw [scan] at h
    cases h
    rw [List.append_nil] at htext
    subst htext
    refine ⟨[], by rw [hposition]; rfl, ?_⟩
    rwa [List.append_nil]
  | case2 depth position c rest ih =>
    rw [scan] at h
    obtain ⟨p, hp, h⟩ := bind_eq_ok.1 h
    obtain ⟨tail, htail, h⟩ := bind_eq_ok.1 h
    have hlength : (before ++ c :: rest.take p.more).length = before.length + (p.more + 1) := by
      rw [List.length_append, List.length_cons, List.length_take,
        Nat.min_eq_left (more_le_of_piece hp)]
    have htext' : text = (before ++ c :: rest.take p.more) ++ rest.drop p.more := by
      rw [List.append_assoc, List.cons_append, List.take_append_drop, htext]
    have hnext := tiling_of_piece hp htext hposition hdepth htiling
    rw [← hlength] at hnext
    obtain ⟨later, rfl, hlater⟩ := ih p htail htext'
      (by rw [hposition, Position.advanceBy_behind])
      (by rw [depthBehind_append_tiles, ← hdepth]) hnext
    refine ⟨p.tiles position before.length ++ later, ?_, by rwa [List.append_assoc] at hlater⟩
    cases h
    rw [Piece.tiles, List.map_append, List.append_assoc]
    cases p.token <;> rfl

end Lexer

/-- The tokens of a text are those of tiles of the whole text, none of
them an end of the input, and then the end of the input, behind all of
the text. Their places ascend. -/
theorem exists_tiling_of_tokenize {dialect : Dialect} {source : String} {tokens : List Located}
    (h : tokenize dialect source = .ok tokens) :
    ∃ tiles : List Tile,
      tokens = tiles.map Tile.toLocated ++ [⟨.endOfInput, .behind source.toList⟩] ∧
      (∀ tile ∈ tiles, tile.token ≠ .endOfInput) ∧
      Tiling dialect source.toList source.toList.length tiles ∧
      tokens.Pairwise fun t u => t.position < u.position := by
  have htext : source.toList = [] ++ source.toList := rfl
  obtain ⟨tiles, rfl, htiling⟩ :=
    Lexer.exists_tiling_of_scan h htext rfl rfl (Tiling.nil dialect source.toList)
  rw [List.nil_append] at htiling
  refine ⟨tiles, rfl, fun tile htile hend => ?_, htiling, htiling.positions⟩
  have hspelled := htiling.spelled tile htile
  rw [hend] at hspelled
  exact hspelled

/-- A statement on two lines with a comment in its brackets, and another
statement. -/
def wrappedSource : String := "pay = (1, # one\n 'b')\nx"

/-- The tokens of that script, each at its place. -/
def wrappedTokens : List Located :=
  [⟨.name "pay", ⟨1, 1⟩⟩, ⟨.symbol .assign, ⟨1, 5⟩⟩, ⟨.symbol .openParen, ⟨1, 7⟩⟩,
    ⟨.int 1, ⟨1, 8⟩⟩, ⟨.symbol .comma, ⟨1, 9⟩⟩, ⟨.text "b", ⟨2, 2⟩⟩,
    ⟨.symbol .closeParen, ⟨2, 5⟩⟩, ⟨.newline, ⟨2, 6⟩⟩, ⟨.name "x", ⟨3, 1⟩⟩,
    ⟨.endOfInput, ⟨3, 2⟩⟩]

/-- The line end in the brackets is skipped, the other one is a token. -/
theorem exists_tiling_wrapped :
    tokenize .script wrappedSource = .ok wrappedTokens ∧
      ∃ tiles : List Tile,
        wrappedTokens = tiles.map Tile.toLocated ++ [⟨.endOfInput, .behind wrappedSource.toList⟩] ∧
        (∀ tile ∈ tiles, tile.token ≠ .endOfInput) ∧
        Tiling .script wrappedSource.toList wrappedSource.toList.length tiles ∧
        wrappedTokens.Pairwise fun t u => t.position < u.position := by
  have htokens : tokenize .script wrappedSource = .ok wrappedTokens := by
    decide +kernel
  exact ⟨htokens, exists_tiling_of_tokenize htokens⟩

end CrapsStrategy
