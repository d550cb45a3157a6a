import CloudComputing.Lab3.Core

/-!
# Configuration files

`readConf` of `conf.cc`.  The kind of a line is found by searching it for key
words: `mode` first, then `coordinator_info`, then `participant_info`, each of
them anywhere in the line.  So a file is read back unless the name of a host
has a key word in it that takes the line for another kind.
-/

namespace CloudComputing
namespace Lab3
namespace Conf

open Decimal Bytes

/-- `NodeInfo` -/
structure NodeInfo where
  add : Bytes
  port : Nat
  deriving DecidableEq, Repr

/-- `Mode` -/
inductive Mode
  /-- `MODE_INVALID` -/
  | invalid
  /-- `MODE_C` -/
  | c
  /-- `MODE_P` -/
  | p
  deriving DecidableEq, Repr

/-- The parameters of `readConf` that it assigns to. -/
structure Settings where
  p : List NodeInfo
  c : NodeInfo
  m : Mode
  deriving DecidableEq, Repr

/-- `buf.find(word) != npos` -/
def has (word : String) (buf : Bytes) : Bool :=
  (find (str word) buf).isSome

/-- What stands behind a key word: its spaces are erased and it is cut at the
first colon, if there is one.  The port is an `unsigned int`. -/
def readInfo (buf : Bytes) : Option NodeInfo :=
  let buf := buf.filter (· ≠ 32)
  (find (str ":") buf).map fun pos =>
    { add := buf.take pos
      port := (strtol (buf.drop (pos + 1)) % 2 ^ 32).toNat }

/-- One round of the loop; `none` when it returns false. -/
def readLine (buf : Bytes) (s : Settings) : Option Settings :=
  -- '!'
  if buf.headD 0 = 33 then some s
  else if has "mode" buf then
    some { s with
      m :=
        if has "coordinator" buf then .c
        else if has "participant" buf then .p
        else .invalid }
  else
    match find (str "coordinator_info") buf with
    | some pos =>
        (readInfo (buf.drop (pos + 16))).map fun c => { s with c := c }
    | none =>
        match find (str "participant_info") buf with
        | some pos =>
            (readInfo (buf.drop (pos + 16))).map fun tmp =>
              { s with p := s.p ++ [tmp] }
        | none => some s

/-- The loop over the lines. -/
def readLines : List Bytes → Settings → Bool × Settings
  | [], s => (true, s)
  | buf :: bufs, s =>
      match readLine buf s with
      | some s => readLines bufs s
      | none => (false, s)

/-- `readConf`, where `none` is a file that cannot be opened.  `getline` gives
the pieces between the newlines, and an empty one at the end of the file. -/
def readConf (file : Option Bytes) (s : Settings) : Bool × Settings :=
  match file with
  | some file => readLines (file.splitOn 10) s
  | none => (false, s)

/-- The variables of `main`, in which the port is not initialised. -/
def initial (port : Nat) : Settings where
  p := []
  c := ⟨[], port⟩
  m := .invalid

/-! ## Files -/

/-- The lines of a configuration file. -/
inductive Item
  | mode (m : Mode)
  | coordinator (node : NodeInfo)
  | participant (node : NodeInfo)
  | comment (text : Bytes)
  | empty
  deriving DecidableEq, Repr

/-- The word for a mode. -/
def Mode.word : Mode → Bytes
  | invalid => []
  | c => str "coordinator"
  | p => str "participant"

/-- `host:port` -/
def NodeInfo.text (node : NodeInfo) : Bytes :=
  node.add ++ str ":" ++ toDecimal node.port

/-- A name and a port as a file can have them. -/
structure NodeInfo.Valid (node : NodeInfo) : Prop where
  nonempty : node.add ≠ []
  noSpace : 32 ∉ node.add
  noColon : 58 ∉ node.add
  noMark : 33 ∉ node.add
  noNewline : 10 ∉ node.add
  port_le : node.port ≤ 65535

namespace Item

/-- The text of a line. -/
def text : Item → Bytes
  | mode m => str "mode " ++ m.word
  | coordinator node => str "coordinator_info " ++ node.text
  | participant node => str "participant_info " ++ node.text
  | comment text => str "!" ++ text
  | empty => []

/-- What the file may have in a line. -/
def Valid : Item → Prop
  | mode m => m ≠ .invalid
  | coordinator node => node.Valid
  | participant node => node.Valid
  | comment text => 10 ∉ text
  | empty => True

/-- The mode that the line sets. -/
def mode? : Item → Option Mode
  | mode m => some m
  | _ => none

/-- The coordinator that the line names. -/
def coordinator? : Item → Option NodeInfo
  | coordinator node => some node
  | _ => none

/-- The participant that the line names. -/
def participant? : Item → Option NodeInfo
  | participant node => some node
  | _ => none

end Item

/-- The file with these lines. -/
def render (items : List Item) : Bytes :=
  [10].intercalate (items.map Item.text)

/-- The line of this coordinator is not taken for a mode. -/
def NodeInfo.clear (node : NodeInfo) : Bool :=
  !has "mode" node.add

/-- The line of this participant is taken neither for a mode nor for the
coordinator. -/
def NodeInfo.clearParticipant (node : NodeInfo) : Bool :=
  !has "mode" node.add && !has "coordinator_info" node.add

/-! ## Key words in a line -/

theorem has_eq_false_iff
    {word : String}
    {buf : Bytes} :
    has word buf = false ↔ ¬ str word <:+: buf := by
  unfold has
  rw [← Bool.not_eq_true, find_isSome_iff]

/-- A key word with a byte that is no digit is not in a number, and it does not
go beyond a space or a colon, so it is in the name if it is not in the key word
of the line. -/
theorem split_info
    {word : String}
    (noSpace : 32 ∉ str word)
    (noColon : 58 ∉ str word)
    {letter : UInt8}
    (inside : letter ∈ str word)
    (noDigit : isDigit letter = false)
    {key left right : Bytes}
    (notKey : has word key = false)
    {node : NodeInfo}
    (same : left ++ str word ++ right = key ++ 32 :: node.text) :
    ∃ before between, node.add = before ++ str word ++ between ∧
      right = between ++ (str ":" ++ toDecimal node.port) := by
  have nonempty : str word ≠ [] := List.ne_nil_of_mem inside
  unfold has at notKey
  rw [← Bool.not_eq_true, find_isSome_iff] at notKey
  rcases side_of_separator noSpace nonempty same with
    ⟨between, isKey, _⟩ | ⟨before, _, isText⟩
  · exact absurd ⟨left, between, isKey.symm⟩ notKey
  · unfold NodeInfo.text at isText
    rw [List.append_assoc] at isText
    rcases side_of_separator noColon nonempty isText.symm with
      ⟨between, isName, isRight⟩ | ⟨between, _, isNumber⟩
    · exact ⟨before, between, isName, isRight⟩
    · have isNumber : toDecimal node.port = between ++ str word ++ right :=
        isNumber
      have inNumber : letter ∈ toDecimal node.port := by
        rw [isNumber, List.append_assoc]
        exact List.mem_append_right _ (List.mem_append_left _ inside)
      exact absurd inNumber (not_mem_toDecimal noDigit)

theorem has_info
    {word : String}
    (noSpace : 32 ∉ str word)
    (noColon : 58 ∉ str word)
    {letter : UInt8}
    (inside : letter ∈ str word)
    (noDigit : isDigit letter = false)
    {key : Bytes}
    (notKey : has word key = false)
    (node : NodeInfo) :
    has word (key ++ 32 :: node.text) = has word node.add := by
  unfold has
  rw [Bool.eq_iff_iff, find_isSome_iff, find_isSome_iff]
  constructor
  · rintro ⟨left, right, same⟩
    obtain ⟨before, between, isName, _⟩ :=
      split_info noSpace noColon inside noDigit notKey same
    exact ⟨before, between, isName.symm⟩
  · intro inName
    apply List.infix_append_of_infix_right
    apply List.infix_cons
    unfold NodeInfo.text
    exact List.infix_append_of_infix_left
      (List.infix_append_of_infix_left inName)

/-- A name and its port behind a key word. -/
theorem readInfo_eq
    (spaces : Bytes)
    {name : Bytes}
    {port : Nat}
    (areSpaces : ∀ byte ∈ spaces, byte = 32)
    (noSpace : 32 ∉ name)
    (noColon : 58 ∉ name)
    (small : port ≤ 65535) :
    readInfo (spaces ++ (NodeInfo.text ⟨name, port⟩)) = some ⟨name, port⟩ := by
  have erased : (spaces ++ (NodeInfo.text ⟨name, port⟩)).filter (· ≠ 32) =
      name ++ str ":" ++ toDecimal port := by
    have noSpaces : spaces.filter (· ≠ 32) = [] := by
      rw [List.filter_eq_nil_iff]
      intro byte inside
      simp [areSpaces byte inside]
    have same : (NodeInfo.text ⟨name, port⟩).filter (· ≠ 32) =
        NodeInfo.text ⟨name, port⟩ := by
      rw [List.filter_eq_self]
      intro byte inside
      rw [decide_eq_true_eq]
      rintro rfl
      unfold NodeInfo.text at inside
      rw [List.mem_append, List.mem_append] at inside
      rcases inside with (inName | isColon) | isDigit
      · exact noSpace inName
      · revert isColon
        decide
      · exact not_mem_toDecimal (by decide) isDigit
    rw [List.filter_append, noSpaces, List.nil_append, same]
    rfl
  have colon : str ":" = [58] := rfl
  have found : find (str ":") (name ++ str ":" ++ toDecimal port) =
      some name.length := by
    rw [colon]
    exact find_append_of_head_not_mem 58 [] name (toDecimal port) noColon
  have behind : (name ++ str ":" ++ toDecimal port).drop (name.length + 1) =
      toDecimal port := by
    have length : (name ++ str ":").length = name.length + 1 := by
      rw [List.length_append]
      rfl
    rw [← length, List.drop_left]
  have isPort : strtol (toDecimal port) = port := by
    have ends := strtol_toDecimal_append_of_lt
      (show port < 2 ^ 63 by omega) EndsNumber.nil
    rw [List.append_nil] at ends
    exact ends
  unfold readInfo
  simp only [erased]
  rw [found, Option.map_some, behind, isPort, List.append_assoc,
    List.take_left, Option.some_inj, NodeInfo.mk.injEq]
  exact ⟨rfl, by omega⟩

/-! ## One line -/

section Line

variable {node : NodeInfo} {s s' : Settings}

/-- A byte of `mode` that is no digit. -/
theorem m_mem_mode : 109 ∈ str "mode" := by
  decide

/-- A byte of `coordinator_info` that is no digit. -/
theorem c_mem_coordinator : 99 ∈ str "coordinator_info" := by
  decide

theorem has_mode_coordinator (node : NodeInfo) :
    has "mode" (Item.coordinator node).text = has "mode" node.add := by
  have notKey : has "mode" (str "coordinator_info") = false := by
    decide
  exact has_info (by decide) (by decide) m_mem_mode (by decide) notKey node

theorem has_mode_participant (node : NodeInfo) :
    has "mode" (Item.participant node).text = has "mode" node.add := by
  have notKey : has "mode" (str "participant_info") = false := by
    decide
  exact has_info (by decide) (by decide) m_mem_mode (by decide) notKey node

theorem notKey_coordinator :
    has "coordinator_info" (str "participant_info") = false := by
  decide

theorem has_coordinator_participant (node : NodeInfo) :
    has "coordinator_info" (Item.participant node).text =
      has "coordinator_info" node.add :=
  has_info (by decide) (by decide) c_mem_coordinator (by decide)
    notKey_coordinator node

theorem readLine_mode
    {m : Mode}
    (valid : m ≠ .invalid) :
    readLine (Item.mode m).text s = some { s with m := m } := by
  cases m with
  | invalid => exact absurd rfl valid
  | c => rfl
  | p => rfl

/-- A line in which the word `mode` occurs. -/
theorem readLine_of_mode
    {buf : Bytes}
    (noMark : buf.headD 0 ≠ 33)
    (isMode : has "mode" buf = true) :
    ∃ m, readLine buf s = some { s with m := m } := by
  unfold readLine
  rw [if_neg noMark, if_pos isMode]
  exact ⟨_, rfl⟩

/-- The line of a coordinator. -/
theorem readLine_coordinator
    (valid : node.Valid)
    (noMode : has "mode" node.add = false) :
    readLine (Item.coordinator node).text s = some { s with c := node } := by
  rw [← has_mode_coordinator] at noMode
  have head : (Item.coordinator node).text.headD 0 = 99 := rfl
  have found : find (str "coordinator_info") (Item.coordinator node).text =
      some 0 := find_append_self (str "coordinator_info") (32 :: node.text)
  have info : readInfo ((Item.coordinator node).text.drop (0 + 16)) =
      some node :=
    readInfo_eq [32] (by simp) valid.noSpace valid.noColon valid.port_le
  unfold readLine
  rw [head, if_neg (by decide), noMode, if_neg Bool.false_ne_true]
  simp only [found]
  rw [info]
  rfl

/-- The line of a participant. -/
theorem readLine_participant
    (valid : node.Valid)
    (noMode : has "mode" node.add = false)
    (noCoordinator : has "coordinator_info" node.add = false) :
    readLine (Item.participant node).text s =
      some { s with p := s.p ++ [node] } := by
  rw [← has_mode_participant] at noMode
  rw [← has_coordinator_participant] at noCoordinator
  have head : (Item.participant node).text.headD 0 = 112 := rfl
  have none : find (str "coordinator_info") (Item.participant node).text =
      none := Option.not_isSome_iff_eq_none.mp (Bool.not_eq_true _ ▸ noCoordinator)
  have found : find (str "participant_info") (Item.participant node).text =
      some 0 := find_append_self (str "participant_info") (32 :: node.text)
  have info : readInfo ((Item.participant node).text.drop (0 + 16)) =
      some node :=
    readInfo_eq [32] (by simp) valid.noSpace valid.noColon valid.port_le
  unfold readLine
  rw [head, if_neg (by decide), noMode, if_neg Bool.false_ne_true]
  simp only [none, found]
  rw [info]
  rfl

/-- A participant that is taken for the coordinator. -/
theorem readLine_participant_as_coordinator
    (valid : node.Valid)
    (noMode : has "mode" node.add = false)
    (isCoordinator : has "coordinator_info" node.add = true) :
    ∃ name, name <:+ node.add ∧
      readLine (Item.participant node).text s =
        some { s with c := ⟨name, node.port⟩ } := by
  rw [← has_mode_participant] at noMode
  rw [← has_coordinator_participant] at isCoordinator
  have head : (Item.participant node).text.headD 0 = 112 := rfl
  obtain ⟨pos, found⟩ := Option.isSome_iff_exists.mp isCoordinator
  obtain ⟨before, after, split, _, isAfter⟩ := split_of_find found
  have length : (str "coordinator_info").length = 16 := rfl
  rw [length] at isAfter
  have same : before ++ str "coordinator_info" ++ after =
      str "participant_info" ++ 32 :: node.text := split.symm
  obtain ⟨left, name, isName, isInfo⟩ := split_info (by decide) (by decide)
    c_mem_coordinator (by decide) notKey_coordinator same
  have suffix : name <:+ node.add := ⟨_, isName.symm⟩
  refine ⟨name, suffix, ?_⟩
  have info : readInfo ((Item.participant node).text.drop (pos + 16)) =
      some ⟨name, node.port⟩ := by
    rw [isAfter, isInfo, ← List.append_assoc]
    exact readInfo_eq [] (by simp)
      (fun inside => valid.noSpace (suffix.subset inside))
      (fun inside => valid.noColon (suffix.subset inside)) valid.port_le
  unfold readLine
  rw [head, if_neg (by decide), noMode, if_neg Bool.false_ne_true]
  simp only [found]
  rw [info]
  rfl

end Line

/-! ## All lines -/

/-- What the lines that are read right assign. -/
def Item.assign (s : Settings) : Item → Settings
  | mode m => { s with m := m }
  | coordinator node => { s with c := node }
  | participant node => { s with p := s.p ++ [node] }
  | comment _ => s
  | empty => s

/-- The line is taken for what it is. -/
def Item.Clear : Item → Prop
  | coordinator node => node.clear = true
  | participant node => node.clearParticipant = true
  | _ => True

/-- A clear line is read right. -/
theorem readLine_of_clear
    {item : Item}
    (valid : item.Valid)
    (clear : item.Clear)
    (s : Settings) :
    readLine item.text s = some (item.assign s) := by
  cases item with
  | mode m => exact readLine_mode valid
  | coordinator node =>
      exact readLine_coordinator valid (Bool.not_eq_true' _ ▸ clear)
  | participant node =>
      have clear : node.clearParticipant = true := clear
      rw [NodeInfo.clearParticipant, Bool.and_eq_true, Bool.not_eq_true',
        Bool.not_eq_true'] at clear
      exact readLine_participant valid clear.1 clear.2
  | comment text => rfl
  | empty => rfl

/-- A line that is not clear adds no participant, and no line puts `mode` into
the name of the coordinator. -/
theorem readLine_effect
    {item : Item}
    {s s' : Settings}
    (valid : item.Valid)
    (read : readLine item.text s = some s') :
    s'.p = s.p ++ item.participant?.toList.filter NodeInfo.clearParticipant ∧
      (has "mode" s.c.add = false → has "mode" s'.c.add = false) := by
  cases item with
  | mode m =>
      rw [readLine_mode valid] at read
      cases read
      exact ⟨(List.append_nil s.p).symm, id⟩
  | comment text =>
      cases read
      exact ⟨(List.append_nil s.p).symm, id⟩
  | empty =>
      cases read
      exact ⟨(List.append_nil s.p).symm, id⟩
  | coordinator node =>
      cases isMode : has "mode" node.add with
      | true =>
          have head : (Item.coordinator node).text.headD 0 ≠ 33 :=
            (by decide : (99 : UInt8) ≠ 33)
          obtain ⟨m, asMode⟩ := readLine_of_mode head
            ((has_mode_coordinator node).trans isMode)
          rw [asMode] at read
          cases read
          exact ⟨(List.append_nil s.p).symm, id⟩
      | false =>
          rw [readLine_coordinator valid isMode] at read
          cases read
          exact ⟨(List.append_nil s.p).symm, fun _ => isMode⟩
  | participant node =>
      have single : (Item.participant node).participant?.toList = [node] := rfl
      rw [single, List.filter_cons, List.filter_nil]
      unfold NodeInfo.clearParticipant
      cases isMode : has "mode" node.add with
      | true =>
          have head : (Item.participant node).text.headD 0 ≠ 33 :=
            (by decide : (112 : UInt8) ≠ 33)
          obtain ⟨m, asMode⟩ := readLine_of_mode head
            ((has_mode_participant node).trans isMode)
          rw [asMode] at read
          cases read
          exact ⟨(List.append_nil s.p).symm, id⟩
      | false =>
          cases isCoordinator : has "coordinator_info" node.add with
          | true =>
              obtain ⟨name, suffix, asCoordinator⟩ :=
                readLine_participant_as_coordinator valid isMode isCoordinator
              rw [asCoordinator] at read
              cases read
              refine ⟨(List.append_nil s.p).symm, fun _ => ?_⟩
              unfold has at isMode ⊢
              rw [← Bool.not_eq_true, find_isSome_iff] at isMode ⊢
              exact fun inName => isMode (inName.trans suffix.isInfix)
          | false =>
              rw [readLine_participant valid isMode isCoordinator] at read
              cases read
              exact ⟨rfl, id⟩

/-- The loop, when all lines are clear. -/
theorem readLines_of_clear
    {items : List Item}
    (valid : ∀ item ∈ items, item.Valid)
    (clear : ∀ item ∈ items, item.Clear)
    (s : Settings) :
    readLines (items.map Item.text) s = (true, items.foldl Item.assign s) := by
  induction items generalizing s with
  | nil => rfl
  | cons item items inductionHypothesis =>
      obtain ⟨isValid, valid⟩ := List.forall_mem_cons.mp valid
      obtain ⟨isClear, clear⟩ := List.forall_mem_cons.mp clear
      rw [List.map_cons, readLines, readLine_of_clear isValid isClear,
        List.foldl_cons]
      exact inductionHypothesis valid clear _

/-- The loop, when it comes to the end. -/
theorem readLines_effect
    {items : List Item}
    {s s' : Settings}
    (valid : ∀ item ∈ items, item.Valid)
    (read : readLines (items.map Item.text) s = (true, s')) :
    s'.p = s.p ++
        (items.filterMap Item.participant?).filter NodeInfo.clearParticipant ∧
      (has "mode" s.c.add = false → has "mode" s'.c.add = false) := by
  induction items generalizing s with
  | nil =>
      cases read
      exact ⟨(List.append_nil _).symm, id⟩
  | cons item items inductionHypothesis =>
      obtain ⟨isValid, valid⟩ := List.forall_mem_cons.mp valid
      rw [List.map_cons, readLines] at read
      cases first : readLine item.text s with
      | none =>
          rw [first] at read
          cases read
      | some middle =>
          rw [first] at read
          obtain ⟨isFirst, firstName⟩ := readLine_effect isValid first
          obtain ⟨isRest, restName⟩ := inductionHypothesis valid read
          refine ⟨?_, fun noMode => restName (firstName noMode)⟩
          have parts : (item :: items).filterMap Item.participant? =
              item.participant?.toList ++
                items.filterMap Item.participant? := by
            cases item <;> rfl
          rw [parts, List.filter_append, ← List.append_assoc, ← isFirst]
          exact isRest

/-- What the lines assign together. -/
theorem foldl_assign
    (items : List Item)
    (s : Settings) :
    items.foldl Item.assign s =
      { p := s.p ++ items.filterMap Item.participant?
        c := (items.filterMap Item.coordinator?).getLast?.getD s.c
        m := (items.filterMap Item.mode?).getLast?.getD s.m } := by
  induction items generalizing s with
  | nil =>
      rw [List.filterMap_nil, List.append_nil]
      rfl
  | cons item items inductionHypothesis =>
      rw [List.foldl_cons, inductionHypothesis]
      cases item with
      | mode m =>
          have modes : (Item.mode m :: items).filterMap Item.mode? =
              m :: items.filterMap Item.mode? := rfl
          rw [modes, List.getLast?_cons]
          rfl
      | coordinator node =>
          have nodes : (Item.coordinator node :: items).filterMap
              Item.coordinator? = node :: items.filterMap Item.coordinator? :=
            rfl
          rw [nodes, List.getLast?_cons]
          rfl
      | participant node =>
          have nodes : (Item.participant node :: items).filterMap
              Item.participant? = node :: items.filterMap Item.participant? :=
            rfl
          rw [nodes, List.append_cons s.p]
          rfl
      | comment text => rfl
      | empty => rfl

theorem NodeInfo.Valid.newline_not_mem
    {node : NodeInfo}
    (valid : node.Valid) :
    10 ∉ node.text := by
  unfold NodeInfo.text
  rw [List.mem_append, List.mem_append]
  rintro ((inName | isColon) | isDigit)
  · exact valid.noNewline inName
  · revert isColon
    decide
  · exact not_mem_toDecimal (by decide) isDigit

/-- No line has a newline. -/
theorem newline_not_mem_text
    {item : Item}
    (valid : item.Valid) :
    10 ∉ item.text := by
  cases item with
  | mode m =>
      cases m with
      | invalid => exact absurd rfl valid
      | c => decide
      | p => decide
  | coordinator node =>
      intro inside
      rcases List.mem_append.mp inside with inKey | inNode
      · revert inKey
        decide
      · exact NodeInfo.Valid.newline_not_mem valid inNode
  | participant node =>
      intro inside
      rcases List.mem_append.mp inside with inKey | inNode
      · revert inKey
        decide
      · exact NodeInfo.Valid.newline_not_mem valid inNode
  | comment text =>
      intro inside
      rcases List.mem_append.mp inside with isMark | inText
      · revert isMark
        decide
      · exact absurd inText valid
  | empty => exact List.not_mem_nil

/-- The loop goes through the lines that the file was made of. -/
theorem readConf_render
    {items : List Item}
    (valid : ∀ item ∈ items, item.Valid)
    (nonempty : items ≠ [])
    (s : Settings) :
    readConf (some (render items)) s = readLines (items.map Item.text) s := by
  have noNewline : ∀ line ∈ items.map Item.text, 10 ∉ line := by
    intro line inside
    obtain ⟨item, isItem, rfl⟩ := List.mem_map.mp inside
    exact newline_not_mem_text (valid item isItem)
  have some' : items.map Item.text ≠ [] := 
    mt List.map_eq_nil_iff.mp nonempty
  change readLines ((render items).splitOn 10) s = _
  rw [render, List.splitOn_intercalate 10 noNewline some']

theorem mem_participants
    {items : List Item}
    {node : NodeInfo} :
    node ∈ items.filterMap Item.participant? ↔ .participant node ∈ items := by
  rw [List.mem_filterMap]
  constructor
  · rintro ⟨item, inside, isNode⟩
    cases item with
    | participant other =>
        cases isNode
        exact inside
    | _ => cases isNode
  · exact fun inside => ⟨_, inside, rfl⟩

theorem mem_coordinators
    {items : List Item}
    {node : NodeInfo}
    (inside : .coordinator node ∈ items) :
    node ∈ items.filterMap Item.coordinator? :=
  List.mem_filterMap.mpr ⟨_, inside, rfl⟩

/-- A file with one mode, one coordinator and any participants is read back
exactly when no name has `mode` in it and no name of a participant has
`coordinator_info` in it. -/
theorem readConf_iff
    {items : List Item}
    (valid : ∀ item ∈ items, item.Valid)
    {m : Mode}
    (oneMode : items.filterMap Item.mode? = [m])
    {c : NodeInfo}
    (oneCoordinator : items.filterMap Item.coordinator? = [c])
    (port : Nat) :
    readConf (some (render items)) (initial port) =
        (true, ⟨items.filterMap Item.participant?, c, m⟩) ↔
      ¬ str "mode" <:+: c.add ∧
        ∀ node, .participant node ∈ items →
          ¬ str "mode" <:+: node.add ∧
            ¬ str "coordinator_info" <:+: node.add := by
  have nonempty : items ≠ [] := by
    rintro rfl
    cases oneMode
  rw [readConf_render valid nonempty]
  constructor
  · intro read
    obtain ⟨isList, noMode⟩ := readLines_effect valid read
    have same : (items.filterMap Item.participant?).filter
        NodeInfo.clearParticipant = items.filterMap Item.participant? :=
      isList.symm
    rw [List.filter_eq_self] at same
    refine ⟨has_eq_false_iff.mp (noMode rfl), ?_⟩
    intro node inside
    have clear := same node (mem_participants.mpr inside)
    rw [NodeInfo.clearParticipant, Bool.and_eq_true, Bool.not_eq_true',
      Bool.not_eq_true'] at clear
    exact ⟨has_eq_false_iff.mp clear.1, has_eq_false_iff.mp clear.2⟩
  · rintro ⟨noMode, others⟩
    have clear : ∀ item ∈ items, item.Clear := by
      intro item inside
      cases item with
      | coordinator node =>
          change (!has "mode" node.add) = true
          have listed := mem_coordinators inside
          rw [oneCoordinator] at listed
          rw [List.mem_singleton.mp listed, has_eq_false_iff.mpr noMode,
            Bool.not_false]
      | participant node =>
          obtain ⟨noMode, noCoordinator⟩ := others node inside
          change (!has "mode" node.add && !has "coordinator_info" node.add) =
            true
          rw [has_eq_false_iff.mpr noMode, has_eq_false_iff.mpr noCoordinator,
            Bool.not_false, Bool.and_self]
      | _ => exact trivial
    rw [readLines_of_clear valid clear, foldl_assign, oneMode, oneCoordinator]
    rfl

/-- A coordinator whose name begins with `mode`. -/
def modelItems : List Item :=
  [.mode .p, .coordinator ⟨str "model", 8001⟩,
    .participant ⟨str "127.0.0.1", 8002⟩]

theorem modelItems_misread :
    ¬ ∀ (items : List Item) (m : Mode) (c : NodeInfo) (port : Nat),
      (∀ item ∈ items, item.Valid) → items.filterMap Item.mode? = [m] →
      items.filterMap Item.coordinator? = [c] →
        readConf (some (render items)) (initial port) =
          (true, ⟨items.filterMap Item.participant?, c, m⟩) := by
  intro always
  have valid : ∀ item ∈ modelItems, item.Valid := by
    intro item inside
    simp only [modelItems, List.mem_cons, List.not_mem_nil, or_false] at inside
    rcases inside with rfl | rfl | rfl
    · exact Mode.noConfusion
    · exact ⟨by decide, by decide, by decide, by decide, by decide, by decide⟩
    · exact ⟨by decide, by decide, by decide, by decide, by decide, by decide⟩
  have read := always modelItems .p ⟨str "model", 8001⟩ 0 valid rfl rfl
  have misread : readConf (some (render modelItems)) (initial 0) =
      (true, ⟨[⟨str "127.0.0.1", 8002⟩], ⟨[], 0⟩, .c⟩) := by
    decide +kernel
  rw [misread] at read
  revert read
  decide +kernel

/-- A file with a comment and an empty line. -/
def commentedItems : List Item :=
  [.comment (str " mode of process"), .mode .c, .empty,
    .participant ⟨str "a", 1⟩, .coordinator ⟨str "participant_info", 65535⟩,
    .participant ⟨str "b", 0⟩, .empty]

theorem readConf_iff_commented :
    readConf (some (render commentedItems)) (initial 0) =
      (true, ⟨[⟨str "a", 1⟩, ⟨str "b", 0⟩],
        ⟨str "participant_info", 65535⟩, .c⟩) := by
  have valid : ∀ item ∈ commentedItems, item.Valid := by
    intro item inside
    simp only [commentedItems, List.mem_cons, List.not_mem_nil, or_false]
      at inside
    rcases inside with rfl | rfl | rfl | rfl | rfl | rfl | rfl
    · exact (by decide : 10 ∉ str " mode of process")
    · exact Mode.noConfusion
    · exact trivial
    · exact ⟨by decide, by decide, by decide, by decide, by decide, by decide⟩
    · exact ⟨by decide, by decide, by decide, by decide, by decide, by decide⟩
    · exact ⟨by decide, by decide, by decide, by decide, by decide, by decide⟩
    · exact trivial
  apply (readConf_iff valid (m := .c) rfl
    (c := ⟨str "participant_info", 65535⟩) rfl 0).mpr
  refine ⟨has_eq_false_iff.mp (by decide), ?_⟩
  intro node inside
  have isOne : node = ⟨str "a", 1⟩ ∨ node = ⟨str "b", 0⟩ := by
    simpa [commentedItems] using inside
  rcases isOne with rfl | rfl
  · exact ⟨has_eq_false_iff.mp (by decide), has_eq_false_iff.mp (by decide)⟩
  · exact ⟨has_eq_false_iff.mp (by decide), has_eq_false_iff.mp (by decide)⟩

end Conf
end Lab3
end CloudComputing
