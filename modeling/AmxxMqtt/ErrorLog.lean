import AmxxMqtt.Lib.Format
import AmxxMqtt.Host

/-!
# The error log

`MF_LogError` and `MF_Log` format their message into a buffer of fixed size.  The natives give
`MF_LogError` their own format strings, and for an exception Paho's text, which is then read as a
format string without arguments.
-/

namespace AmxxMqtt

/-- The bytes of a literal. -/
def utf8 (text : String) : Bytes :=
  text.toUTF8.data.toList

/-- The conversions `%d` and `%s`. -/
def printf : Format.Conversions UInt8 LogArg where
  marker := 37
  convert
    | 100, .int value => some (utf8 (toString value))
    | 115, .text value => some (cString value)
    | 115, .name value => some (utf8 value)
    | _, _ => none

/-- What `vsnprintf` leaves in a buffer of this size, without the NUL; `none` where C does not
say what happens. -/
def vsnprintf (size : Nat) (format : Bytes) (args : List LogArg) : Option Bytes :=
  (printf.render format args).map (·.take (size - 1))

/-- The size of `msg`. -/
def messageSize : Nat := 3072

/-- The common body of `MF_Log` and `MF_LogError`: the `msg` they pass on to AMXX. -/
def formatMessage (format : Bytes) (args : List LogArg) : Option Bytes :=
  vsnprintf (messageSize - 1) (cString format) args

def mfLog (format : Bytes) (args : List LogArg) : Option Bytes :=
  formatMessage format args

def mfLogError (format : Bytes) (args : List LogArg) : Option Bytes :=
  formatMessage format args

/-- The message a native's error is logged with; `what` is Paho's text for an exception. -/
def NativeError.message (what : PahoException → String) (error : NativeError) : Option Bytes :=
  mfLogError (utf8 (error.format what)) error.arguments

/-- What an error says in the module's own words; an exception is in Paho's. -/
def NativeError.text : NativeError → Option Bytes
  | .tooFewArguments function =>
      some (utf8 "Too few arguments to " ++ utf8 function ++ utf8 ", the inc file incorrect?")
  | .invalidClientHandle handle =>
      some (utf8 "Invalid mqtt client handle: " ++ utf8 (toString handle))
  | .invalidOptionsHandle handle =>
      some (utf8 "Invalid mqtt connect options handle: " ++ utf8 (toString handle))
  | .emptyTopic => some (utf8 "Topic name could not be empty")
  | .invalidQos qos =>
      some (utf8 "Invalid MQTT QoS: " ++ utf8 (toString qos) ++ utf8 " (expected 0, 1, or 2)")
  | .missingCallback callback =>
      some (utf8 "Callback function \"" ++ cString callback ++ utf8 "\" is not exists")
  | .exception _ => none
  | .invalidOptionName => some (utf8 "Invalid option name")

/-! ## Messages -/

theorem formatMessage_of_render {format whole : Bytes} {args : List LogArg}
    (rendered : printf.render (cString format) args = some whole) :
    formatMessage format args = some (whole.take 3070) := by
  rw [formatMessage, vsnprintf, rendered]
  rfl

/-- A format string with one conversion in it. -/
theorem formatMessage_one {format before after out : Bytes} {arg : LogArg} (letter : UInt8)
    (parts : cString format = before ++ printf.marker :: letter :: after ∧
      printf.marker ∉ before ∧ letter ≠ printf.marker ∧ printf.marker ∉ after)
    (converted : printf.convert letter arg = some out) :
    formatMessage format [arg] = some ((before ++ out ++ after).take 3070) := by
  rcases parts with ⟨parts, plainBefore, other, plainAfter⟩
  refine formatMessage_of_render ?_
  rw [parts, Format.Conversions.render_one plainBefore other plainAfter converted]

theorem formatMessage_plain {format text : Bytes} {args : List LogArg}
    (parts : cString format = text ∧ printf.marker ∉ text) :
    formatMessage format args = some (text.take 3070) := by
  rcases parts with ⟨rfl, plain⟩
  exact formatMessage_of_render (Format.Conversions.render_of_notMem plain)

theorem NativeError.message_of_text (what : PahoException → String) {error : NativeError}
    {text : Bytes} (worded : error.text = some text) :
    error.message what = some (text.take 3070) := by
  -- a text that ends in its conversion has nothing after it
  have ending {format before out : Bytes} {arg : LogArg} (letter : UInt8)
      (parts : cString format = before ++ printf.marker :: letter :: [] ∧
        printf.marker ∉ before ∧ letter ≠ printf.marker)
      (converted : printf.convert letter arg = some out) :
      formatMessage format [arg] = some ((before ++ out).take 3070) := by
    have whole := formatMessage_one letter
      ⟨parts.1, parts.2.1, parts.2.2, List.not_mem_nil⟩ converted
    rwa [List.append_nil] at whole
  unfold NativeError.message mfLogError
  cases error with
  | exception => cases worded
  | tooFewArguments function =>
      cases worded
      exact formatMessage_one 115 (by simp only [NativeError.format]; decide +kernel) rfl
  | invalidClientHandle handle =>
      cases worded
      exact ending 100 (by simp only [NativeError.format]; decide +kernel) rfl
  | invalidOptionsHandle handle =>
      cases worded
      exact ending 100 (by simp only [NativeError.format]; decide +kernel) rfl
  | invalidQos qos =>
      cases worded
      exact formatMessage_one 100 (by simp only [NativeError.format]; decide +kernel) rfl
  | missingCallback callback =>
      cases worded
      exact formatMessage_one 115 (by simp only [NativeError.format]; decide +kernel) rfl
  | emptyTopic | invalidOptionName =>
      cases worded
      exact formatMessage_plain (by simp only [NativeError.format]; decide +kernel)

/-- An exception's text is a format string without arguments. -/
theorem NativeError.message_exception (what : PahoException → String) {exception : PahoException}
    {message : Bytes} : (NativeError.exception exception).message what = some message ↔
      ∃ text, cString (utf8 (what exception)) = printf.escape text ∧ message = text.take 3070 := by
  unfold NativeError.message mfLogError formatMessage vsnprintf
  rw [Option.map_eq_some_iff]
  constructor
  · intro logged
    rcases logged with ⟨text, rendered, rfl⟩
    exact ⟨text, Format.Conversions.render_eq_some_iff.mp rendered, rfl⟩
  · intro logged
    rcases logged with ⟨text, escaped, rfl⟩
    exact ⟨text, Format.Conversions.render_eq_some_iff.mpr escaped, rfl⟩

/-- **What an error is logged as.**  The module's own errors say what they are to say, up to the
buffer's 3070 bytes.  An exception has a message only if every `%` of Paho's text is doubled, and
it is the text with each pair made one; for any other text C leaves open what happens.  The reason
a failed attach gives is logged as it is, whatever it holds. -/
theorem errors_logged (what : PahoException → String) :
    (∀ error message, NativeError.message what error = some message ↔
      ∃ text, message = text.take 3070 ∧ (error.text = some text ∨ ∃ exception,
        error = .exception exception ∧ cString (utf8 (what exception)) = printf.escape text)) ∧
    ∀ reason, mfLog (utf8 "%s") [.text reason] = some ((cString reason).take 3070) := by
  refine ⟨fun error message => ?_, fun reason => ?_⟩
  · cases worded : error.text with
    | some text =>
        rw [NativeError.message_of_text what worded]
        constructor
        · rintro ⟨rfl⟩
          exact ⟨text, rfl, .inl rfl⟩
        · intro logged
          rcases logged with ⟨other, rfl, same | ⟨exception, rfl, _⟩⟩
          · cases same
            rfl
          · cases worded
    | none =>
        cases error with
        | exception exception =>
            rw [NativeError.message_exception]
            constructor
            · intro logged
              rcases logged with ⟨text, escaped, rfl⟩
              exact ⟨text, rfl, .inr ⟨exception, rfl, escaped⟩⟩
            · intro logged
              rcases logged with ⟨text, rfl, same | ⟨_, same, escaped⟩⟩
              · cases same
              · cases same
                exact ⟨text, escaped, rfl⟩
        | _ => cases worded
  · have whole : printf.render (cString (utf8 "%s")) [.text reason] = some (cString reason) := by
      have parts : cString (utf8 "%s") = [] ++ printf.marker :: 115 :: [] := by decide +kernel
      rw [parts, Format.Conversions.render_one List.not_mem_nil (by decide) List.not_mem_nil rfl,
        List.append_nil, List.nil_append]
    exact formatMessage_of_render whole

end AmxxMqtt
