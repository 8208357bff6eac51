import ScreenWatch.Session.Options

/-!
# The command after the options

Arguments that are nothing but options and their values (`OnlyOptions`) are scanned on their own, whatever comes after
them (`OnlyOptions.scan_append`).  So the words after `--` are the command, and have no say in the options; only the
requests for help and for the version are looked for among them too (`Options.parse_terminated`).
-/

namespace ScreenWatch.Session

open Host (Environment)

/-! ### Scanning options -/

section Scan

variable {meaning : UInt8 → Letter} {posix : Bool}

/-- Arguments that are options with their values, and nothing else. -/
inductive OnlyOptions (meaning : UInt8 → Letter) : List Bytes → Prop
  | nil : OnlyOptions meaning []
  /-- Flags that share an argument. -/
  | flags {letters : Bytes} {rest : List Bytes} (hne : letters ≠ []) (hflags : ∀ l ∈ letters, meaning l = .flag)
    (hrest : OnlyOptions meaning rest) : OnlyOptions meaning ((0x2D :: letters) :: rest)
  /-- An option whose value stands in the same argument; flags may come before it. -/
  | attached {letters value : Bytes} {letter : UInt8} {rest : List Bytes} (hflags : ∀ l ∈ letters, meaning l = .flag)
    (hletter : meaning letter = .takesValue) (hne : value ≠ []) (hrest : OnlyOptions meaning rest) :
    OnlyOptions meaning ((0x2D :: (letters ++ letter :: value)) :: rest)
  /-- An option whose value is the next argument, whatever that is. -/
  | separate {letters value : Bytes} {letter : UInt8} {rest : List Bytes} (hflags : ∀ l ∈ letters, meaning l = .flag)
    (hletter : meaning letter = .takesValue) (hrest : OnlyOptions meaning rest) :
    OnlyOptions meaning ((0x2D :: (letters ++ [letter])) :: value :: rest)

private theorem withItems_withItems (items items' : List Item) (s : Scanned) :
    (s.withItems items').withItems items = s.withItems (items ++ items') := by
  simp [Scanned.withItems]

private theorem scanCluster_flags {letters : Bytes} (h : ∀ l ∈ letters, meaning l = .flag) (more : Bytes) :
    scanCluster meaning (letters ++ more) =
      (letters.map (.option · none) ++ (scanCluster meaning more).1, (scanCluster meaning more).2) := by
  induction letters with
  | nil => rfl
  | cons l letters ih =>
    have hl : meaning l = .flag := h l (by simp)
    rw [List.cons_append, scanCluster, hl]
    dsimp only
    rw [ih fun l' hl' => h l' (by simp [hl'])]
    rfl

/-- An argument that begins with a dash and is not `--` alone is scanned for its letters. -/
private theorem scan_letters {letters : Bytes} (hne : letters ≠ []) (hdashes : letters ≠ [0x2D]) (rest : List Bytes) :
    scan meaning posix ((0x2D :: letters) :: rest) =
      match scanCluster meaning letters with
      | (items, .complete) => (scan meaning posix rest).withItems items
      | (items, .invalid letter) => { items := items ++ [.invalid letter] }
      | (items, .wantsValue letter) =>
        match rest with
        | [] => { items := items ++ [.missing letter] }
        | value :: rest => (scan meaning posix rest).withItems (items ++ [.option letter (some value)]) := by
  have hcluster : isCluster (0x2D :: letters) = true := by
    cases letters with
    | nil => exact absurd rfl hne
    | cons l more => rfl
  have hopen : (0x2D :: letters : Bytes) ≠ [0x2D, 0x2D] := fun h => hdashes (List.cons.inj h).2
  rw [scan.eq_def]
  refine (if_neg hopen).trans ((if_pos hcluster).trans ?_)
  rcases h : scanCluster meaning letters with ⟨items, _ | _ | _⟩ <;> cases rest <;>
    simp only [List.tail_cons, h]

/-- Options are scanned by themselves, and then what comes after them. -/
theorem OnlyOptions.scan_append {given : List Bytes} (hgiven : OnlyOptions meaning given)
    (hdash : meaning 0x2D = .unknown) (posix : Bool) :
    ∃ items, ∀ rest, scan meaning posix (given ++ rest) = (scan meaning posix rest).withItems items := by
  induction hgiven with
  | nil => exact ⟨[], fun rest => rfl⟩
  | @flags letters rest hne hflags _ ih =>
    obtain ⟨items, ih⟩ := ih
    -- A dash is no letter, so the cluster is not the one that ends the options.
    have hdashes : letters ≠ [0x2D] := by
      rintro rfl
      cases hdash.symm.trans (hflags 0x2D (by simp))
    have hscan := scanCluster_flags hflags []
    rw [List.append_nil, scanCluster, List.append_nil] at hscan
    refine ⟨letters.map (.option · none) ++ items, fun more => ?_⟩
    rw [List.cons_append, scan_letters hne hdashes, hscan]
    dsimp only
    rw [ih more, withItems_withItems]
  | @attached letters value letter rest hflags hletter hne _ ih =>
    obtain ⟨items, ih⟩ := ih
    have hdashes : letters ++ letter :: value ≠ [0x2D] := by
      intro h
      have hlen := congrArg List.length h
      have hpos := List.length_pos_iff.2 hne
      simp only [List.length_append, List.length_cons, List.length_nil] at hlen
      omega
    have hvalue : scanCluster meaning (letter :: value) = ([.option letter (some value)], .complete) := by
      rw [scanCluster, hletter]
      exact if_neg (by simpa using hne)
    refine ⟨letters.map (.option · none) ++ [.option letter (some value)] ++ items, fun more => ?_⟩
    rw [List.cons_append, scan_letters (by simp) hdashes, scanCluster_flags hflags, hvalue]
    dsimp only
    rw [ih more, withItems_withItems]
  | @separate letters value letter rest hflags hletter _ ih =>
    obtain ⟨items, ih⟩ := ih
    have hdashes : letters ++ [letter] ≠ [0x2D] := by
      intro h
      obtain ⟨-, hl⟩ := List.append_inj' (h.trans (List.nil_append [0x2D]).symm) rfl
      rw [(List.cons.inj hl).1, hdash] at hletter
      cases hletter
    have hvalue : scanCluster meaning [letter] = ([], .wantsValue letter) := by
      rw [scanCluster, hletter]
      rfl
    refine ⟨letters.map (.option · none) ++ [.option letter (some value)] ++ items, fun more => ?_⟩
    rw [List.cons_append, List.cons_append, scan_letters (by simp) hdashes, scanCluster_flags hflags, hvalue]
    dsimp only
    rw [ih more, withItems_withItems, List.append_nil]

end Scan

namespace Options

/-! ### Parsing -/

theorem request?_eq_none_iff (arguments : List Bytes) :
    request? arguments = none ↔ ascii "--help" ∉ arguments ∧ ascii "--version" ∉ arguments := by
  unfold request?
  rw [List.findSome?_eq_none_iff]
  constructor
  · intro h
    constructor
    · intro hhelp
      exact absurd (h _ hhelp) (by decide)
    · intro hversion
      exact absurd (h _ hversion) (by decide)
  · rintro ⟨hhelp, hversion⟩ a ha
    have hne : a ≠ ascii "--help" ∧ a ≠ ascii "--version" :=
      ⟨fun h => hhelp (h ▸ ha), fun h => hversion (h ▸ ha)⟩
    rw [if_neg hne.1, if_neg hne.2]

/-- The dashes that end the options are no request. -/
theorem request?_append_dashes (given command : List Bytes) :
    request? (given ++ ascii "--" :: command) = (request? given).or (request? command) := by
  have hdashes : ascii "--" ≠ ascii "--help" ∧ ascii "--" ≠ ascii "--version" := by decide
  unfold request?
  rw [List.findSome?_append, List.findSome?_cons, if_neg hdashes.1, if_neg hdashes.2]

/-- The options that the environment and the items of a command line give. -/
def ofItems (env : Environment) (items : List Item) : Except Refusal Options := do
  items.foldlM apply (← ofEnvironment env)

/-- The options with the words as the command, if there are any. -/
def withCommand (words : List Bytes) (o : Options) : Options :=
  { o with command := if words.isEmpty then none else some words }

theorem parse_of_request (env : Environment) (program : Bytes) {arguments : List Bytes} {request : Refusal}
    (h : request? arguments = some request) : parse env (program :: arguments) = .error request := by
  unfold parse
  dsimp only
  rw [h]
  rfl

theorem parse_of_scan (env : Environment) (program : Bytes) {arguments operands : List Bytes} {items : List Item}
    (h : request? arguments = none)
    (hscan : scan meaning (env.get? "POSIXLY_CORRECT").isSome arguments = { items, operands }) :
    parse env (program :: arguments) = (ofItems env items).map (withCommand operands) := by
  unfold parse ofItems
  dsimp only
  rw [h, hscan]
  cases ofEnvironment env with
  | error refusal => rfl
  | ok o =>
    show (items.foldlM apply o >>= fun o => _) = (items.foldlM apply o).map _
    cases items.foldlM apply o <;> rfl

private theorem exists_of_map_eq_ok {x : Except Refusal Options} {f : Options → Options} {o : Options}
    (h : x.map f = .ok o) : ∃ o', x = .ok o' ∧ f o' = o := by
  cases x with
  | error refusal => cases h
  | ok o' => exact ⟨o', rfl, Except.ok.inj h⟩

/-- Everything after `--` is the command, word by word, and the options are those that are given before it: provided
that these are options with their values and nothing else, and that they can be parsed on their own.  Only a request
for help or for the version is granted also where it is a word of the command. -/
theorem parse_terminated (env : Environment) (program : Bytes) {given : List Bytes} (hgiven : OnlyOptions meaning given)
    {o : Options} (h : parse env (program :: given) = .ok o) (command : List Bytes) :
    o.command = none ∧
      (ascii "--help" ∉ command ∧ ascii "--version" ∉ command →
        parse env (program :: (given ++ ascii "--" :: command)) = .ok (o.withCommand command)) ∧
      ∀ request, request? command = some request →
        parse env (program :: (given ++ ascii "--" :: command)) = .error request := by
  obtain ⟨items, hscan⟩ := hgiven.scan_append (by decide) (env.get? "POSIXLY_CORRECT").isSome
  have hnone : request? given = none := by
    cases hrequest : request? given with
    | none => rfl
    | some request => cases h.symm.trans (parse_of_request env program hrequest)
  have hrequest := request?_append_dashes given command
  rw [hnone, Option.none_or] at hrequest
  have halone : scan meaning (env.get? "POSIXLY_CORRECT").isSome given = { items } := by
    have hgiven := hscan []
    rwa [List.append_nil, scan, Scanned.withItems, List.append_nil] at hgiven
  have hterminated : scan meaning (env.get? "POSIXLY_CORRECT").isSome (given ++ ascii "--" :: command) =
      { items, operands := command } := by
    rw [hscan, scan, if_pos (by decide), Scanned.withItems, List.append_nil]
  rw [parse_of_scan env program hnone halone] at h
  obtain ⟨o', ho', rfl⟩ := exists_of_map_eq_ok h
  refine ⟨rfl, ?_, fun request hword => parse_of_request env program (hrequest.trans hword)⟩
  intro hwords
  rw [parse_of_scan env program (hrequest.trans ((request?_eq_none_iff command).2 hwords)) hterminated, ho']
  rfl

/-- A size is given with its number in the next argument, and the command has options of its own, and dashes. -/
theorem parse_terminated_list :
    OnlyOptions meaning [ascii "-nc", ascii "100", ascii "-r50"] ∧
      parse [] [ascii "vtmirror", ascii "-nc", ascii "100", ascii "-r50"] =
        .ok { cols := 100, rows := 50, present := false } ∧
      parse [] [ascii "vtmirror", ascii "-nc", ascii "100", ascii "-r50", ascii "--", ascii "ls", ascii "-c",
        ascii "--"] = .ok { cols := 100, rows := 50, present := false, command := some [ascii "ls", ascii "-c", ascii "--"] } := by
  have hgiven : OnlyOptions meaning [ascii "-nc", ascii "100", ascii "-r50"] :=
    @OnlyOptions.separate _ [0x6E] (ascii "100") 0x63 _ (by decide +kernel) (by decide +kernel)
      (@OnlyOptions.attached _ [] (ascii "50") 0x72 _ (by decide +kernel) (by decide +kernel) (by decide +kernel) .nil)
  have halone : parse [] [ascii "vtmirror", ascii "-nc", ascii "100", ascii "-r50"] =
      .ok { cols := 100, rows := 50, present := false } := by rfl
  have hwords : ascii "--help" ∉ [ascii "ls", ascii "-c", ascii "--"] ∧
      ascii "--version" ∉ [ascii "ls", ascii "-c", ascii "--"] := by decide +kernel
  exact ⟨hgiven, halone, (parse_terminated [] (ascii "vtmirror") hgiven halone _).2.1 hwords⟩

/-- A word of the command is taken for a request, so the command is not run. -/
theorem parse_takes_help_from_command :
    OnlyOptions meaning [] ∧ parse [] [ascii "vtmirror"] = .ok { } ∧
      parse [] [ascii "vtmirror", ascii "--", ascii "ls", ascii "--help"] = .error .help :=
  ⟨.nil, rfl, rfl⟩

end Options

end ScreenWatch.Session
