import Interchange.Json.Value
import Interchange.Settings.Basic
import Interchange.Text.Digits

/-!
# Setting one thing at a time

An assignment gives one of the settings a value. Settings are built by assignments, loaded as the
assignments that a document holds, and written as the assignments that make them.
-/

namespace Interchange

/-- The name of a setting. -/
inductive SettingName where
  | lengthWidth
  | lengthOffset
  | lengthAdjustment
  | lengthDecimal
  | maxFrameLength
  | idleTimeout
  | answerEchoes
  | replyOnError
  | workerThreads
  | failOnListenerError
  | echoRule
  | logMessages
  | logSensitive
  | sensitiveFields
  | maxPendingWrites
  deriving DecidableEq, Repr

namespace SettingName

/-- Every setting, in the order in which settings are listed. -/
def all : List SettingName :=
  [lengthWidth, lengthOffset, lengthAdjustment, lengthDecimal, maxFrameLength, idleTimeout,
    answerEchoes, replyOnError, workerThreads, failOnListenerError, echoRule, logMessages,
    logSensitive, sensitiveFields, maxPendingWrites]

/-- The key of a setting in a document. -/
def key : SettingName → String
  | lengthWidth => "frameLengthFieldLength"
  | lengthOffset => "frameLengthFieldOffset"
  | lengthAdjustment => "frameLengthFieldAdjust"
  | lengthDecimal => "encodeFrameLengthAsString"
  | maxFrameLength => "maxFrameLength"
  | idleTimeout => "idleTimeoutSecs"
  | answerEchoes => "addEchoMessageListener"
  | replyOnError => "replyOnError"
  | workerThreads => "workerThreads"
  | failOnListenerError => "failOnListenerError"
  | echoRule => "echoMatch"
  | logMessages => "addLoggingHandler"
  | logSensitive => "logSensitiveData"
  | sensitiveFields => "sensitiveDataFields"
  | maxPendingWrites => "maxPendingWrites"

/-- The setting with a key. -/
def keyed? (key : List Char) : Option SettingName := all.find? (·.key.toList = key)

/-- The type of a setting's value. -/
abbrev Value : SettingName → Type
  | lengthWidth => UInt64
  | lengthOffset => UInt64
  | lengthAdjustment => Int32
  | lengthDecimal => Bool
  | maxFrameLength => UInt64
  | idleTimeout => UInt64
  | answerEchoes => Bool
  | replyOnError => Bool
  | workerThreads => UInt64
  | failOnListenerError => Bool
  | echoRule => EchoRule
  | logMessages => Bool
  | logSensitive => Bool
  | sensitiveFields => List UInt8
  | maxPendingWrites => UInt64

/-- Settings with one of them set. -/
def set : (name : SettingName) → name.Value → Settings → Settings
  | lengthWidth, v, s => { s with lengthWidth := v }
  | lengthOffset, v, s => { s with lengthOffset := v }
  | lengthAdjustment, v, s => { s with lengthAdjustment := v }
  | lengthDecimal, v, s => { s with lengthDecimal := v }
  | maxFrameLength, v, s => { s with maxFrameLength := v }
  | idleTimeout, v, s => { s with idleTimeout := v }
  | answerEchoes, v, s => { s with answerEchoes := v }
  | replyOnError, v, s => { s with replyOnError := v }
  | workerThreads, v, s => { s with workerThreads := v }
  | failOnListenerError, v, s => { s with failOnListenerError := v }
  | echoRule, v, s => { s with echoRule := v }
  | logMessages, v, s => { s with logMessages := v }
  | logSensitive, v, s => { s with logSensitive := v }
  | sensitiveFields, v, s => { s with sensitiveFields := v }
  | maxPendingWrites, v, s => { s with maxPendingWrites := v }

/-- The value of one of the settings. -/
def get : (name : SettingName) → Settings → name.Value
  | lengthWidth, s => s.lengthWidth
  | lengthOffset, s => s.lengthOffset
  | lengthAdjustment, s => s.lengthAdjustment
  | lengthDecimal, s => s.lengthDecimal
  | maxFrameLength, s => s.maxFrameLength
  | idleTimeout, s => s.idleTimeout
  | answerEchoes, s => s.answerEchoes
  | replyOnError, s => s.replyOnError
  | workerThreads, s => s.workerThreads
  | failOnListenerError, s => s.failOnListenerError
  | echoRule, s => s.echoRule
  | logMessages, s => s.logMessages
  | logSensitive, s => s.logSensitive
  | sensitiveFields, s => s.sensitiveFields
  | maxPendingWrites, s => s.maxPendingWrites

end SettingName

/-- One of the settings and its value. -/
structure Assignment where
  /-- Which of the settings. -/
  name : SettingName
  /-- Its value. -/
  value : name.Value

namespace Assignment

/-- Settings with an assignment made. -/
def apply (s : Settings) (a : Assignment) : Settings := a.name.set a.value s

end Assignment

namespace Settings

/-- The settings where none are given, with assignments made one after the other. -/
def build (as : List Assignment) : Settings := as.foldl Assignment.apply default

/-- The assignments that make the settings. -/
def assignments (s : Settings) : List Assignment :=
  SettingName.all.map fun name => ⟨name, name.get s⟩

end Settings

end Interchange
