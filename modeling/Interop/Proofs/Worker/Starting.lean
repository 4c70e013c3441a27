import Interop.Proofs.Script.Tokenizing
import Interop.Proofs.Text.Decoding
import Interop.Worker.Format
import Interop.Worker.Start
/-!
The ends of a start. Whatever the operating system answers, a worker is ready exactly if its payload
was sent, or was refused by a closed pipe, and the first line of its output is the expected status;
then it is left alone with the rest of its output. Every other end is a failure, and the worker is
ended and waited for once.
-/

set_option autoImplicit false

namespace Interop.Worker

/-! ### Statuses -/

/-- A number in decimal digits, perhaps with a sign. -/
inductive Numeral : List Char → Int → Prop
  | plain {digits : List Char} (written : digits ≠ []) (decimal : ∀ d ∈ digits, d.isDigit = true) :
      Numeral digits (Nat.ofDigitChars 10 digits 0)
  | plus {digits : List Char} (written : digits ≠ []) (decimal : ∀ d ∈ digits, d.isDigit = true) :
      Numeral ('+' :: digits) (Nat.ofDigitChars 10 digits 0)
  | minus {digits : List Char} (written : digits ≠ []) (decimal : ∀ d ∈ digits, d.isDigit = true) :
      Numeral ('-' :: digits) (-(Nat.ofDigitChars 10 digits 0 : Nat))

theorem digitsValue?_eq_some_iff {digits : List Char} {n : Nat} :
    digitsValue? digits = some n ↔
      digits ≠ [] ∧ (∀ d ∈ digits, d.isDigit = true) ∧ Nat.ofDigitChars 10 digits 0 = n := by
  rw [Nat.ofDigitChars_eq_foldl]
  unfold digitsValue?
  split
  · simp
  · rename_i written
    split
    · rename_i decimal
      rw [Option.some.injEq]
      exact ⟨fun same => ⟨written, List.all_eq_true.mp decimal, same⟩, fun all => all.2.2⟩
    · rename_i other
      exact iff_of_false nofun fun all => other (List.all_eq_true.mpr all.2.1)

theorem word?_eq_some_iff {i : Int} {word : Int64} : word? i = some word ↔ word.toInt = i := by
  constructor
  · exact toInt_of_word?
  · rintro rfl
    rw [word?, if_pos ⟨word.le_toInt, word.toInt_lt⟩, Int64.ofInt_toInt]

theorem digitsValue?_bind_eq_some_iff {digits : List Char} {f : Nat → Int} {status : Int64} :
    (digitsValue? digits).bind (fun value => word? (f value)) = some status ↔
      digits ≠ [] ∧ (∀ d ∈ digits, d.isDigit = true) ∧
        status.toInt = f (Nat.ofDigitChars 10 digits 0) := by
  rw [Option.bind_eq_some_iff]
  constructor
  · rintro ⟨value, read, word⟩
    obtain ⟨written, decimal, rfl⟩ := digitsValue?_eq_some_iff.mp read
    exact ⟨written, decimal, word?_eq_some_iff.mp word⟩
  · rintro ⟨written, decimal, word⟩
    exact ⟨_, digitsValue?_eq_some_iff.mpr ⟨written, decimal, rfl⟩, word?_eq_some_iff.mpr word⟩

/-- A status is read from the numerals of signed words. -/
theorem readStatus?_eq_some_iff {text : List Char} {status : Int64} :
    readStatus? text = some status ↔ Numeral text status.toInt := by
  constructor
  · intro read
    unfold readStatus? at read
    split at read
    · obtain ⟨written, decimal, value⟩ := digitsValue?_bind_eq_some_iff.mp read
      rw [value]
      exact .minus written decimal
    · obtain ⟨written, decimal, value⟩ := digitsValue?_bind_eq_some_iff.mp read
      rw [value]
      exact .plus written decimal
    · obtain ⟨written, decimal, value⟩ := digitsValue?_bind_eq_some_iff.mp read
      rw [value]
      exact .plain written decimal
  · intro numeral
    generalize value : status.toInt = i at numeral
    cases numeral with
    | plus written decimal =>
        exact digitsValue?_bind_eq_some_iff.mpr ⟨written, decimal, value⟩
    | minus written decimal =>
        exact digitsValue?_bind_eq_some_iff.mpr ⟨written, decimal, value⟩
    | plain written decimal =>
        unfold readStatus?
        split
        · exact absurd (decimal _ List.mem_cons_self) (by decide)
        · exact absurd (decimal _ List.mem_cons_self) (by decide)
        · exact digitsValue?_bind_eq_some_iff.mpr ⟨written, decimal, value⟩

/-! ### Blanks around a status -/

section Trim

open Text

theorem dropWhile_append_of_head {p : Char → Bool} {front text : List Char}
    (inside : ∀ c ∈ front, p c = true) (outside : ∀ c ∈ text.head?, p c = false) :
    (front ++ text).dropWhile p = text :=
  (Script.takeWhile_append_apart inside outside).2

theorem trim_append {before text after : List Char} (blankBefore : ∀ c ∈ before, isBlank c = true)
    (blankAfter : ∀ c ∈ after, isBlank c = true) (some : text ≠ [])
    (visible : ∀ c ∈ text, isBlank c = false) : trim (before ++ text ++ after) = text := by
  have front : (before ++ (text ++ after)).dropWhile isBlank = text ++ after := by
    apply dropWhile_append_of_head blankBefore
    intro c first
    rw [List.head?_append, Option.mem_def, Option.or_of_isSome (by simpa using some)] at first
    exact visible c (List.mem_of_mem_head? first)
  have behind : (after.reverse ++ text.reverse).dropWhile isBlank = text.reverse := by
    apply dropWhile_append_of_head fun c among => blankAfter c (List.mem_reverse.mp among)
    exact fun c last => visible c (List.mem_reverse.mp (List.mem_of_mem_head? last))
  rw [trim, List.append_assoc, front, List.reverse_append, behind, List.reverse_reverse]

theorem exists_trim_split (text : List Char) :
    ∃ before after, text = before ++ trim text ++ after ∧ (∀ c ∈ before, isBlank c = true) ∧
      ∀ c ∈ after, isBlank c = true := by
  have front := List.takeWhile_append_dropWhile (p := isBlank) (l := text)
  have behind := List.takeWhile_append_dropWhile (p := isBlank)
    (l := (text.dropWhile isBlank).reverse)
  refine ⟨text.takeWhile isBlank, ((text.dropWhile isBlank).reverse.takeWhile isBlank).reverse,
    ?_, ?_, ?_⟩
  · rw [trim, List.append_assoc, ← List.reverse_append, behind, List.reverse_reverse, front]
  · exact fun c among => List.mem_takeWhile_imp among
  · exact fun c among => List.mem_takeWhile_imp (List.mem_reverse.mp among)

end Trim

theorem Numeral.visible {text : List Char} {i : Int} (numeral : Numeral text i) :
    text ≠ [] ∧ ∀ c ∈ text, Text.isBlank c = false := by
  have digits {digits : List Char} (decimal : ∀ d ∈ digits, d.isDigit = true) :
      ∀ c ∈ digits, Text.isBlank c = false :=
    fun c among => (Script.BeginsToken.of_isDigit (decimal c among)).notBlank
  cases numeral with
  | plain written decimal => exact ⟨written, digits decimal⟩
  | plus _ decimal | minus _ decimal =>
      exact ⟨List.cons_ne_nil _ _, List.forall_mem_cons.mpr ⟨by decide, digits decimal⟩⟩

/-- A line tells a status if it is the numeral of it, with blanks around. -/
inductive Tells (line : String) (status : Int64) : Prop
  | intro {before numeral after : List Char} (split : line.toList = before ++ numeral ++ after)
    (blankBefore : ∀ c ∈ before, Text.isBlank c = true)
    (blankAfter : ∀ c ∈ after, Text.isBlank c = true) (written : Numeral numeral status.toInt)

theorem tells_iff {line : String} {status : Int64} :
    Tells line status ↔ readStatus? (Text.trim line.toList) = some status := by
  rw [readStatus?_eq_some_iff]
  constructor
  · rintro ⟨split, blankBefore, blankAfter, written⟩
    obtain ⟨some, visible⟩ := written.visible
    rw [split, trim_append blankBefore blankAfter some visible]
    exact written
  · intro written
    obtain ⟨before, after, split, blankBefore, blankAfter⟩ := exists_trim_split line.toList
    exact ⟨split, blankBefore, blankAfter, written⟩

/-! ### Lines -/

namespace Output

/-- The first line of an output without its line feed, and what is left of the output behind it. -/
inductive FirstLine : Output → List UInt8 → Output → Prop
  | ended {line rest : List UInt8} {ending : StreamEnd} (noFeed : lineFeed ∉ line) :
      FirstLine ⟨line ++ lineFeed :: rest, ending⟩ line ⟨rest, ending⟩
  | last {line : List UInt8} (noFeed : lineFeed ∉ line) (some : line ≠ []) :
      FirstLine ⟨line, .closed⟩ line ⟨[], .closed⟩

variable {output rest : Output} {line bytes : List UInt8} {cause : String}

theorem FirstLine.readLine (first : output.FirstLine line rest) :
    output.readLine = .line line rest := by
  cases first with
  | ended noFeed =>
      unfold Output.readLine
      rw [splitLine_append noFeed]
  | last noFeed some =>
      unfold Output.readLine
      rw [splitLine_of_not_mem noFeed]
      dsimp only
      rw [if_neg (by simpa using some)]

theorem readLine_failed (noFeed : lineFeed ∉ bytes) :
    readLine ⟨bytes, .failed cause⟩ = .failed cause := by
  unfold readLine
  rw [splitLine_of_not_mem noFeed]

theorem readLine_pending (noFeed : lineFeed ∉ bytes) :
    readLine ⟨bytes, .pending⟩ = .blocked := by
  unfold readLine
  rw [splitLine_of_not_mem noFeed]

/-- An output has a first line unless it ends before there is one. -/
theorem firstLine_or (output : Output) :
    (∃ line rest, output.FirstLine line rest) ∨ output = ⟨[], .closed⟩ ∨
      lineFeed ∉ output.bytes ∧ output.ending ≠ .closed := by
  obtain ⟨bytes, ending⟩ := output
  by_cases feed : lineFeed ∈ bytes
  · obtain ⟨line, rest, rfl, noFeed⟩ := List.eq_append_cons_of_mem feed
    exact .inl ⟨_, _, .ended noFeed⟩
  cases ending with
  | closed =>
      by_cases nothing : bytes = []
      · exact .inr (.inl (by rw [nothing]))
      · exact .inl ⟨_, _, .last feed nothing⟩
  | failed cause => exact .inr (.inr ⟨feed, nofun⟩)
  | pending => exact .inr (.inr ⟨feed, nofun⟩)

end Output

/-! ### Starts -/

/-- The payload was written, or not all of it because the worker had closed its input. -/
def Writing.Sent (writing : Writing) : Prop := writing = .written ∨ writing = .brokenPipe

theorem decode?_bytesOf (text : String) : Text.decode? (bytesOf text) = some text :=
  Text.decode?_eq_some_iff.mpr rfl

section Start

variable {expected status : Int64} {writing : Writing} {output rest : Output} {line : List UInt8}
  {text : String} {failure : Failure}

/-- Why a worker that was sent its payload, or could not be sent it, is not ready. -/
inductive Fails (expected : Int64) : Writing → Output → Failure → Prop
  | write {cause : String} {output : Output} : Fails expected (.failed cause) output (.io cause)
  | read {writing : Writing} {bytes : List UInt8} {cause : String} (sent : writing.Sent)
      (noFeed : lineFeed ∉ bytes) : Fails expected writing ⟨bytes, .failed cause⟩ (.io cause)
  | silent {writing : Writing} (sent : writing.Sent) :
      Fails expected writing ⟨[], .closed⟩ (.protocol .silent)
  | noText {writing : Writing} {output rest : Output} {line : List UInt8} (sent : writing.Sent)
      (first : output.FirstLine line rest) (invalid : ∀ text, line ≠ bytesOf text) :
      Fails expected writing output (.io "stream did not contain valid UTF-8")
  | noStatus {writing : Writing} {output rest : Output} {text : String} (sent : writing.Sent)
      (first : output.FirstLine (bytesOf text) rest) (other : ∀ status, ¬ Tells text status) :
      Fails expected writing output
        (.protocol (.notNumeric (String.ofList (Text.trim text.toList))))
  | signal {writing : Writing} {output rest : Output} {text : String} {actual : Int64}
      (sent : writing.Sent) (first : output.FirstLine (bytesOf text) rest)
      (tells : Tells text actual) (other : actual ≠ expected) :
      Fails expected writing output (.signal expected actual)

theorem start_of_sent (sent : writing.Sent) : start expected writing output =
    match output.readLine with
    | .line line rest => some (judgeLine expected line rest)
    | .nothing => some (.reaped (.protocol .silent))
    | .failed cause => some (.reaped (.io cause))
    | .blocked => none := by
  rcases sent with rfl | rfl
  · rfl
  · rfl

theorem start_of_firstLine (sent : writing.Sent) (first : output.FirstLine line rest) :
    start expected writing output = some (judgeLine expected line rest) := by
  rw [start_of_sent sent, first.readLine]

theorem judgeLine_of_tells (tells : Tells text status) :
    judgeLine expected (bytesOf text) rest =
      if status = expected then .ready rest else .reaped (.signal expected status) := by
  unfold judgeLine
  rw [decode?_bytesOf]
  dsimp only
  rw [tells_iff.mp tells]

theorem start_of_fails (fails : Fails expected writing output failure) :
    start expected writing output = some (.reaped failure) := by
  cases fails with
  | write => rfl
  | read sent noFeed => rw [start_of_sent sent, Output.readLine_failed noFeed]
  | silent sent => rw [start_of_sent sent]; rfl
  | @noText _ _ _ line sent first invalid =>
      have undecoded : Text.decode? line = none := by
        rw [Option.eq_none_iff_forall_ne_some]
        exact fun text decoded => invalid text (Text.decode?_eq_some_iff.mp decoded)
      rw [start_of_firstLine sent first, judgeLine, undecoded]
  | @noStatus _ _ _ text sent first other =>
      have unread : readStatus? (Text.trim text.toList) = none := by
        rw [Option.eq_none_iff_forall_ne_some]
        exact fun status read => other status (tells_iff.mpr read)
      rw [start_of_firstLine sent first, judgeLine, decode?_bytesOf]
      dsimp only
      rw [unread]
  | signal sent first tells other =>
      rw [start_of_firstLine sent first, judgeLine_of_tells tells, if_neg other]

theorem start_of_tells (sent : writing.Sent) (first : output.FirstLine (bytesOf text) rest)
    (tells : Tells text expected) : start expected writing output = some (.ready rest) := by
  rw [start_of_firstLine sent first, judgeLine_of_tells tells, if_pos rfl]

theorem start_of_pending (sent : writing.Sent) (noFeed : lineFeed ∉ output.bytes)
    (goesOn : output.ending = .pending) : start expected writing output = none := by
  obtain ⟨bytes, ending⟩ := output
  obtain rfl : ending = .pending := goesOn
  rw [start_of_sent sent, Output.readLine_pending noFeed]

theorem tells_or_fails (expected : Int64) (sent : writing.Sent)
    (first : output.FirstLine line rest) :
    (∃ text, line = bytesOf text ∧ Tells text expected) ∨
      ∃ failure, Fails expected writing output failure := by
  by_cases encoded : ∃ text, line = bytesOf text
  · obtain ⟨text, rfl⟩ := encoded
    by_cases told : ∃ status, Tells text status
    · obtain ⟨status, tells⟩ := told
      by_cases same : status = expected
      · exact .inl ⟨text, rfl, same ▸ tells⟩
      · exact .inr ⟨_, .signal sent first tells same⟩
    · exact .inr ⟨_, .noStatus sent first (not_exists.mp told)⟩
  · exact .inr ⟨_, .noText sent first (not_exists.mp encoded)⟩

/-- The expected status is told, or something fails, or there is nothing to judge by yet. -/
theorem start_cases (expected : Int64) (writing : Writing) (output : Output) :
    (∃ text rest, writing.Sent ∧ output.FirstLine (bytesOf text) rest ∧ Tells text expected) ∨
      (∃ failure, Fails expected writing output failure) ∨
      (writing.Sent ∧ lineFeed ∉ output.bytes ∧ output.ending = .pending) := by
  by_cases sent : writing.Sent
  · rcases output.firstLine_or with ⟨line, rest, first⟩ | rfl | ⟨noFeed, open'⟩
    · rcases tells_or_fails expected sent first with ⟨text, rfl, tells⟩ | fails
      · exact .inl ⟨text, rest, sent, first, tells⟩
      · exact .inr (.inl fails)
    · exact .inr (.inl ⟨_, .silent sent⟩)
    · obtain ⟨bytes, ending⟩ := output
      cases ending with
      | closed => exact absurd rfl open'
      | failed cause => exact .inr (.inl ⟨_, .read sent noFeed⟩)
      | pending => exact .inr (.inr ⟨sent, noFeed, rfl⟩)
  · cases writing with
    | written => exact absurd (.inl rfl) sent
    | brokenPipe => exact absurd (.inr rfl) sent
    | failed cause => exact .inr (.inl ⟨_, .write⟩)

/-- A worker is ready exactly if its payload was sent as far as it wanted it and the first line of
its output tells the expected status; it has the rest of the output, and nothing was done to it.
Otherwise there is a failure, which tells what went wrong first, and the worker was ended and waited
for once; unless it goes on without a line. -/
theorem start_correct (expected : Int64) (writing : Writing) (output : Output) :
    (∀ ready actions, start expected writing output = some ⟨.ok ready, actions⟩ ↔
      (∃ text, writing.Sent ∧ output.FirstLine (bytesOf text) ready.unread ∧
        Tells text expected) ∧ actions = []) ∧
    (∀ failure actions, start expected writing output = some ⟨.error failure, actions⟩ ↔
      Fails expected writing output failure ∧ actions = [.kill, .wait]) ∧
    (start expected writing output = none ↔
      writing.Sent ∧ lineFeed ∉ output.bytes ∧ output.ending = .pending) := by
  refine ⟨?_, ?_, ?_⟩
  · intro ready actions
    constructor
    · intro ended
      rcases start_cases expected writing output with
        ⟨text, rest, sent, first, tells⟩ | ⟨failure, fails⟩ | ⟨sent, noFeed, goesOn⟩
      · cases (start_of_tells sent first tells).symm.trans ended
        exact ⟨⟨text, sent, first, tells⟩, rfl⟩
      · cases (start_of_fails fails).symm.trans ended
      · cases (start_of_pending sent noFeed goesOn).symm.trans ended
    · rintro ⟨⟨text, sent, first, tells⟩, rfl⟩
      exact start_of_tells sent first tells
  · intro failure actions
    constructor
    · intro ended
      rcases start_cases expected writing output with
        ⟨text, rest, sent, first, tells⟩ | ⟨failure, fails⟩ | ⟨sent, noFeed, goesOn⟩
      · cases (start_of_tells sent first tells).symm.trans ended
      · cases (start_of_fails fails).symm.trans ended
        exact ⟨fails, rfl⟩
      · cases (start_of_pending sent noFeed goesOn).symm.trans ended
    · rintro ⟨fails, rfl⟩
      exact start_of_fails fails
  · constructor
    · intro ended
      rcases start_cases expected writing output with
        ⟨text, rest, sent, first, tells⟩ | ⟨failure, fails⟩ | pending
      · cases (start_of_tells sent first tells).symm.trans ended
      · cases (start_of_fails fails).symm.trans ended
      · exact pending
    · rintro ⟨sent, noFeed, goesOn⟩
      exact start_of_pending sent noFeed goesOn

/-- A worker that closes its input at once, tells the status `-7` among blanks and writes more. -/
example : start (-7) .brokenPipe ⟨bytesOf " -7\r\nmore", .pending⟩ =
    some ⟨.ok ⟨⟨bytesOf "more", .pending⟩⟩, []⟩ := by
  rfl

end Start

end Interop.Worker
