import ClashNative.HttpText
import ClashNative.RestlsStream
import Mathlib.Data.List.DropRight
/-!
# RestlsScript — the scripts that a ResTLS stream is configured with

`parse_restls_script` (`restls.cpp`) against the grammar of its items.
-/
namespace ClashNative.Restls

open List

open Http (isDigit decimal)

structure ParsedLine where
  targetLength : UInt16
  randomRange : UInt16 := 0
  randomizeTarget : Bool := false
  command : RestlsCommand := {}
  deriving DecidableEq, Repr

inductive ScriptError
  | targetLength | randomRange | command | responseCount | empty
  deriving DecidableEq, Repr

/-! ### The scanner -/

def isSpace (c : UInt8) : Bool := c = 32 || (9 ≤ c && c ≤ 13)

def trim (value : Bytes) : Bytes := (value.dropWhile isSpace).rdropWhile isSpace

def parseInteger (value : Bytes) : Option Nat :=
  if value ≠ [] ∧ value.all isDigit ∧ decimal value < 2 ^ 32 then some (decimal value) else none

/-- The part of an item from a `?` or a `~` on, and what is behind it. -/
def parseRange (target : Nat) (line : ParsedLine) : Bytes → Except ScriptError (ParsedLine × Bytes)
  | [] => .ok (line, [])
  | mark :: rest =>
    if mark = 63 ∨ mark = 126 then
      match parseInteger (rest.takeWhile isDigit) with
      | none => .error .randomRange
      | some range =>
        if 32767 < range ∨ 32768 < range + target then .error .randomRange
        else .ok ({ line with randomizeTarget := mark = 63, randomRange := UInt16.ofNat range },
          rest.dropWhile isDigit)
    else .ok (line, mark :: rest)

/-- The part from a `<` on, which takes all that is left. -/
def parseCommand (line : ParsedLine) : Bytes → Except ScriptError ParsedLine
  | [] => .ok line
  | mark :: rest =>
    if mark ≠ 60 then .error .command
    else
      match parseInteger rest with
      | none => .error .responseCount
      | some response =>
        if 255 ≤ response then .error .responseCount else
        .ok { line with command := ⟨.response, UInt8.ofNat response⟩ }

/-- One turn of the loop, for an item that is not blank.  The cursor is at the end then: its last check
never fails. -/
def parseItem (token : Bytes) : Except ScriptError ParsedLine :=
  match parseInteger (token.takeWhile isDigit) with
  | none => .error .targetLength
  | some target =>
    if 32767 < target then .error .targetLength
    else
      match parseRange target { targetLength := UInt16.ofNat target } (token.dropWhile isDigit) with
      | .error e => .error e
      | .ok (line, rest) => parseCommand line rest

def notComma (c : UInt8) : Bool := c ≠ 44

def parseItems (result : List ParsedLine) (script : Bytes) : Except ScriptError (List ParsedLine) :=
  if _hempty : script = [] then .ok result
  else
    let token := trim (script.takeWhile notComma)
    match if token = [] then .ok result else (parseItem token).map fun line => result ++ [line] with
    | .error e => .error e
    | .ok result =>
      if script.dropWhile notComma = [] then .ok result else parseItems result (script.dropWhile notComma).tail
  termination_by script.length
  decreasing_by
    have hle := (List.dropWhile_suffix notComma (l := script)).length_le
    have hpos := List.length_pos_iff.2 _hempty
    rw [List.length_tail]
    omega

def parseRestlsScript (script : Bytes) : Except ScriptError (List ParsedLine) :=
  match parseItems [] script with
  | .error e => .error e
  | .ok [] => .error .empty
  | .ok result => .ok result

/-! ### The grammar -/

def Number (digits : Bytes) (n : Nat) : Prop := digits ≠ [] ∧
    (∀ c ∈ digits, isDigit c = true) ∧ decimal digits = n

def RangePart (target : Nat) (text : Bytes) (line : ParsedLine) : Prop :=
  (text = [] ∧ line.randomRange = 0 ∧ line.randomizeTarget = false) ∨
  ∃ mark digits, (mark = 63 ∨ mark = 126) ∧ text = mark :: digits ∧ Number digits line.randomRange.toNat ∧
    line.randomRange.toNat ≤ 32767 ∧ target + line.randomRange.toNat ≤ 32768 ∧
    line.randomizeTarget = decide (mark = 63)

def CommandPart (text : Bytes) (command : RestlsCommand) : Prop :=
  (text = [] ∧ command = {}) ∨
  ∃ digits, text = 60 :: digits ∧ command.kind = .response ∧ Number digits command.response.toNat ∧
  command.response.toNat < 255

def Item (token : Bytes) (line : ParsedLine) : Prop :=
  ∃ digits range command, token = digits ++ (range ++ command) ∧ Number digits line.targetLength.toNat ∧
  line.targetLength.toNat ≤ 32767 ∧
    RangePart line.targetLength.toNat range line ∧ CommandPart command line.command

def items (script : Bytes) : List Bytes := ((script.splitOn 44).map trim).filter (· ≠ [])

/-! ### The scanner against the grammar -/

variable {n : Nat}

theorem parseInteger_iff {value : Bytes} : parseInteger value = some n ↔ Number value n ∧ n < 2 ^ 32 := by
  unfold parseInteger Number
  split
  · rename_i h
    rw [Option.some.injEq]
    exact ⟨fun heq => heq ▸ ⟨⟨h.1, all_eq_true.1 h.2.1, rfl⟩, h.2.2⟩, fun hn => hn.1.2.2⟩
  · rename_i h
    exact iff_of_false nofun fun hn => h ⟨hn.1.1, all_eq_true.2 hn.1.2.1, hn.1.2.2 ▸ hn.2⟩

theorem digits_split {digits : Bytes} (rest : Bytes) (h : ∀ c ∈ digits, isDigit c = true)
    (hrest : ∀ c, rest.head? = some c → isDigit c = false) :
    (digits ++ rest).takeWhile isDigit = digits ∧ (digits ++ rest).dropWhile isDigit = rest := by
  have hnone : rest.takeWhile isDigit = [] ∧ rest.dropWhile isDigit = rest := by
    cases rest with
    | nil => exact ⟨rfl, rfl⟩
    | cons c rest => simp [hrest c rfl]
  rw [takeWhile_append_of_pos h, dropWhile_append_of_pos h, hnone.1, hnone.2, append_nil]
  exact ⟨rfl, rfl⟩

variable {text : Bytes} {command : RestlsCommand}

theorem CommandPart.head (h : CommandPart text command) (c : UInt8) (hc : text.head? = some c) :
    c = 60 := by
  rcases h with ⟨rfl, -⟩ | ⟨digits, rfl, -⟩
  · cases hc
  · exact (Option.some.inj hc).symm

variable {line : ParsedLine} {target : Nat}

theorem RangePart.head (h : RangePart target text line) (c : UInt8) (hc : text.head? = some c) :
    c = 63 ∨ c = 126 := by
  rcases h with ⟨rfl, -⟩ | ⟨mark, digits, hmark, rfl, -⟩
  · cases hc
  · exact Option.some.inj hc ▸ hmark

theorem toNat_ofNat_of_le (h : n ≤ 32767) : (UInt16.ofNat n).toNat = n := by
  rw [UInt16.toNat_ofNat']
  omega

variable {line' : ParsedLine}

theorem parseCommand_iff (hline : line.command = {}) : parseCommand line text = .ok line' ↔
    ∃ command, CommandPart text command ∧ line' = { line with command } := by
  obtain ⟨targetLength, randomRange, randomizeTarget, command⟩ := line
  obtain rfl : command = {} := hline
  cases text with
  | nil =>
    rw [parseCommand, Except.ok.injEq]
    refine ⟨fun h => ⟨_, .inl ⟨rfl, rfl⟩, h.symm⟩, ?_⟩
    rintro ⟨command, ⟨-, rfl⟩ | ⟨digits, hcons, -⟩, rfl⟩
    · rfl
    · cases hcons
  | cons mark rest =>
    rw [parseCommand]
    by_cases hmark : mark = 60
    · subst hmark
      rw [if_neg (not_not.2 rfl)]
      constructor
      · intro h
        split at h
        · cases h
        · rename_i response hresponse
          obtain ⟨hnumber, -⟩ := parseInteger_iff.1 hresponse
          split at h
          · cases h
          · rename_i hlt
            have hkept : (UInt8.ofNat response).toNat = response := by
              rw [UInt8.toNat_ofNat']
              omega
            exact ⟨_, .inr ⟨rest, rfl, rfl, by rwa [hkept], by rw [hkept]; omega⟩, (Except.ok.inj h).symm⟩
      · rintro ⟨command, ⟨hnil, -⟩ | ⟨digits, hcons, hkind, hnumber, hlt⟩, rfl⟩
        · cases hnil
        · obtain rfl := (List.cons.inj hcons).2
          rw [parseInteger_iff.2 ⟨hnumber, by omega⟩]
          dsimp only
          rw [if_neg (by omega), UInt8.ofNat_toNat, ← hkind]
    · rw [if_pos hmark]
      refine iff_of_false nofun ?_
      rintro ⟨command, hpart, -⟩
      exact hmark (hpart.head mark rfl)

variable {rest : Bytes}

theorem parseRange_ok (hline : line.randomRange = 0 ∧ line.randomizeTarget = false)
    (h : parseRange target line text = .ok (line', rest)) :
    ∃ range, text = range ++ rest ∧ RangePart target range line' ∧ line' = { line with
      randomRange := line'.randomRange, randomizeTarget := line'.randomizeTarget } := by
  cases text with
  | nil =>
    obtain ⟨rfl, rfl⟩ := Prod.mk.inj (Except.ok.inj h)
    exact ⟨[], rfl, .inl ⟨rfl, hline⟩, rfl⟩
  | cons mark text =>
    rw [parseRange] at h
    split at h
    · rename_i hmark
      split at h
      · cases h
      · rename_i range hrange
        obtain ⟨hnumber, -⟩ := parseInteger_iff.1 hrange
        split at h
        · cases h
        · obtain ⟨rfl, rfl⟩ := Prod.mk.inj (Except.ok.inj h)
          have hkept := toNat_ofNat_of_le (n := range) (by omega)
          refine ⟨mark :: text.takeWhile isDigit, by rw [cons_append, takeWhile_append_dropWhile],
            .inr ⟨mark, _, hmark, rfl, by rwa [hkept], ?_, ?_, rfl⟩, rfl⟩
          · rw [hkept]; omega
          · rw [hkept]; omega
    · obtain ⟨rfl, rfl⟩ := Prod.mk.inj (Except.ok.inj h)
      exact ⟨[], rfl, .inl ⟨rfl, hline⟩, rfl⟩

theorem parseRange_of_part {range : Bytes}
    (hrange : RangePart target range line) (hrest : CommandPart rest command) :
    parseRange target { targetLength := line.targetLength } (range ++ rest) =
    .ok ({ line with command := {} }, rest) := by
  obtain ⟨targetLength, randomRange, randomizeTarget, command'⟩ := line
  rcases hrange with ⟨rfl, hzero, hfalse⟩ | ⟨mark, digits, hmark, rfl, hnumber, hle, hsum, hrandomize⟩
  · obtain ⟨rfl, rfl⟩ : randomRange = 0 ∧ randomizeTarget = false := ⟨hzero, hfalse⟩
    rw [nil_append]
    cases rest with
    | nil => rfl
    | cons mark rest =>
      have hmark := hrest.head mark rfl
      rw [parseRange, if_neg (by rw [hmark]; decide)]
  · have hdigits := digits_split rest hnumber.2.1 fun c hc => by rw [hrest.head c hc]; rfl
    rw [cons_append, parseRange, if_pos hmark, hdigits.1, hdigits.2, parseInteger_iff.2 ⟨hnumber, by omega⟩]
    dsimp only at hrandomize hle hsum ⊢
    rw [if_neg (by omega), UInt16.ofNat_toNat, hrandomize]

theorem parseItem_iff {token : Bytes} : parseItem token = .ok line ↔ Item token line := by
  constructor
  · intro h
    unfold parseItem at h
    split at h
    · cases h
    · rename_i target htarget
      obtain ⟨hnumber, -⟩ := parseInteger_iff.1 htarget
      split at h
      · cases h
      · rename_i hle
        have hkept := toNat_ofNat_of_le (Nat.not_lt.1 hle)
        split at h
        · cases h
        · rename_i line' rest hrange
          obtain ⟨range, htext, hpart, hsame⟩ := parseRange_ok ⟨rfl, rfl⟩ hrange
          obtain ⟨command, hcommand, rfl⟩ := (parseCommand_iff (by rw [hsame])).1 h
          have hlength : line'.targetLength.toNat = target := by rw [hsame]; exact hkept
          refine ⟨token.takeWhile isDigit, range, rest, ?_, ?_, ?_, ?_, hcommand⟩
          · rw [← htext, takeWhile_append_dropWhile]
          · exact hlength ▸ hnumber
          · exact hlength ▸ Nat.not_lt.1 hle
          · exact hlength ▸ hpart
  · rintro ⟨digits, range, command, rfl, hnumber, hle, hrange, hcommand⟩
    have hdigits := digits_split (range ++ command) hnumber.2.1 fun c hc => by
      have hmark : c = 63 ∨ c = 126 ∨ c = 60 := by
        cases range with
        | nil => exact .inr (.inr (hcommand.head c hc))
        | cons mark range => exact (hrange.head c hc).imp_right .inl
      rcases hmark with rfl | rfl | rfl <;> rfl
    unfold parseItem
    rw [hdigits.1, hdigits.2, parseInteger_iff.2 ⟨hnumber, by omega⟩]
    dsimp only
    rw [if_neg (by omega), UInt16.ofNat_toNat, parseRange_of_part hrange hcommand]
    exact (parseCommand_iff rfl).2 ⟨line.command, hcommand, rfl⟩

def firstItem (script : Bytes) : List Bytes :=
  if trim (script.takeWhile notComma) = [] then [] else [trim (script.takeWhile notComma)]

theorem items_split (script : Bytes) : items script = firstItem script ++
    if script.dropWhile notComma = [] then [] else items (script.dropWhile notComma).tail := by
  have hnot : (44 : UInt8) ∉ script.takeWhile notComma := fun hmem => absurd (mem_takeWhile_imp hmem) (by decide)
  have hsplit := takeWhile_append_dropWhile (p := notComma) (l := script)
  have hblank : ([script.takeWhile notComma].map trim).filter (· ≠ []) = firstItem script := by
    unfold firstItem
    by_cases h : trim (script.takeWhile notComma) = [] <;> simp [h]
  cases hrest : script.dropWhile notComma with
  | nil =>
    rw [hrest, append_nil] at hsplit
    rw [if_pos rfl, append_nil, ← hblank, hsplit, items, splitOn_eq_singleton (hsplit ▸ hnot)]
  | cons c rest =>
    have hcomma : c = 44 := by
      have hhead := head?_dropWhile_not notComma script
      rw [hrest] at hhead
      exact Decidable.byContradiction fun hne => Bool.noConfusion ((decide_eq_true hne).symm.trans hhead)
    rw [hrest, hcomma] at hsplit
    rw [if_neg (cons_ne_nil _ _), ← hblank, tail_cons, items, items, ← filter_append, ← map_append]
    conv_lhs => rw [← hsplit, splitOn_append_cons_self, splitOn_eq_singleton hnot]

theorem parsed_nil (result lines : List ParsedLine) : (.ok result : Except ScriptError _) = .ok lines ↔
    ∃ more, lines = result ++ more ∧ List.Forall₂ Item [] more := by
  rw [Except.ok.injEq]
  refine ⟨fun h => ⟨[], by rw [h, append_nil], .nil⟩, ?_⟩
  rintro ⟨more, rfl, hmore⟩
  cases hmore
  exact (append_nil _).symm

theorem parseItems_iff (result : List ParsedLine) (script : Bytes) (lines : List ParsedLine) :
    parseItems result script = .ok lines ↔ ∃ more, lines = result ++ more ∧
    List.Forall₂ Item (items script) more := by
  rw [parseItems]
  by_cases hempty : script = []
  · have hitems : items [] = [] := by decide
    rw [dif_pos hempty, hempty, hitems]
    exact parsed_nil result lines
  · have hrest : ∀ result, (if script.dropWhile notComma = [] then .ok result else
      parseItems result (script.dropWhile notComma).tail) =
        .ok lines ↔ ∃ more, lines = result ++ more ∧
          List.Forall₂ Item (if script.dropWhile notComma = [] then [] else
            items (script.dropWhile notComma).tail) more := fun result => by
      by_cases hlast : script.dropWhile notComma = []
      · rw [if_pos hlast, if_pos hlast]
        exact parsed_nil result lines
      · rw [if_neg hlast, if_neg hlast]
        exact parseItems_iff result (script.dropWhile notComma).tail lines
    rw [dif_neg hempty, items_split, firstItem]
    by_cases hblank : trim (script.takeWhile notComma) = []
    · simp only [if_pos hblank]
      exact hrest result
    · simp only [if_neg hblank]
      cases hitem : parseItem (trim (script.takeWhile notComma)) with
      | error e =>
        refine iff_of_false nofun ?_
        rintro ⟨more, -, hmore⟩
        cases hmore with
        | cons hfirst _ => exact absurd (hitem.symm.trans (parseItem_iff.2 hfirst)) nofun
      | ok line =>
        refine (hrest (result ++ [line])).trans ⟨fun ⟨more, hlines, hmore⟩ => ?_,
          fun ⟨more, hlines, hmore⟩ => ?_⟩
        · exact ⟨line :: more, by rw [hlines, append_assoc]; rfl, .cons (parseItem_iff.1 hitem) hmore⟩
        · cases hmore with
          | @cons _ line' _ more hfirst hmore =>
            obtain rfl := Except.ok.inj (hitem.symm.trans (parseItem_iff.2 hfirst))
            exact ⟨more, by rw [hlines, append_assoc]; rfl, hmore⟩
  termination_by script.length
  decreasing_by
    have hle := (dropWhile_suffix notComma (l := script)).length_le
    have hpos := length_pos_iff.2 hempty
    rw [length_tail]
    omega

/-- **The scripts that are accepted are those of the grammar**: the items that are not blank are each an
item of it, with the numbers of the lines as they are written, and there is one at least; every other text
is refused. -/
theorem parseRestlsScript_iff (script : Bytes) : (∀ lines, parseRestlsScript script = .ok lines ↔
      lines ≠ [] ∧ List.Forall₂ Item (items script) lines) ∧
    ((∃ e, parseRestlsScript script = .error e) ↔ ¬ ∃ lines, lines ≠ [] ∧
      List.Forall₂ Item (items script) lines) := by
  have hok : ∀ lines, parseRestlsScript script = .ok lines ↔ lines ≠ [] ∧
    List.Forall₂ Item (items script) lines := fun lines => by
    have hparsed : parseItems [] script = .ok lines ↔ List.Forall₂ Item (items script) lines := by
      rw [parseItems_iff]
      exact ⟨fun ⟨_, heq, hmore⟩ => heq ▸ hmore, fun h => ⟨lines, rfl, h⟩⟩
    rw [← hparsed, parseRestlsScript]
    cases parseItems [] script with
    | error e => exact iff_of_false nofun fun h => absurd h.2 nofun
    | ok result =>
      cases result with
      | nil => exact iff_of_false nofun fun h => h.1 (Except.ok.inj h.2).symm
      | cons line result => exact ⟨fun h => ⟨Except.ok.inj h ▸ cons_ne_nil _ _, h⟩, fun h => h.2⟩
  refine ⟨hok, ?_⟩
  simp only [← hok]
  cases parseRestlsScript script with
  | error e => simp
  | ok lines => simp

end ClashNative.Restls
