/-
  Chart options.

  There are seven options, each unset or set to a text.  `Options` is the record of their values;
  `get` and `set` reach them by key, and setting one leaves the others alone (`get_set`).  What a
  value means is decided where it is used, so a record may hold values that make no sense.
-/
import GanttChart.Text.Words
import GanttChart.Text.Casing

namespace GanttChart

open GanttChart.Text

/-- The options of a chart. -/
inductive OptionKey where
  | title
  | axisTicks
  | todayMarker
  | dependencies
  | inputDateFormat
  | outputDateFormat
  | businessDays
  deriving DecidableEq

namespace OptionKey

/-- All options. -/
def all : List OptionKey :=
  [.title, .axisTicks, .todayMarker, .dependencies, .inputDateFormat, .outputDateFormat,
    .businessDays]

/-- The name of an option, in lower case. -/
def name : OptionKey → String
  | .title => "title"
  | .axisTicks => "axisticks"
  | .todayMarker => "todaymarker"
  | .dependencies => "dependencies"
  | .inputDateFormat => "inputdateformat"
  | .outputDateFormat => "outputdateformat"
  | .businessDays => "businessdays"

/-- The option of a name. -/
def ofName? (name : String) : Option OptionKey := all.find? fun key => key.name == name

/-- The option that a word means, in whatever case it is written. -/
def ofWord? (word : List Char) : Option OptionKey := ofName? (String.ofList (lowercase word))

/-- The name of an option is known, and means it. -/
theorem ofName?_name (key : OptionKey) : ofName? key.name = some key := by
  cases key <;> decide

end OptionKey

/-- The values of the options that are set. -/
structure Options where
  title : Option String := none
  axisTicks : Option String := none
  todayMarker : Option String := none
  dependencies : Option String := none
  inputDateFormat : Option String := none
  outputDateFormat : Option String := none
  businessDays : Option String := none
  deriving DecidableEq

namespace Options

/-- The value of an option. -/
def get (options : Options) : OptionKey → Option String
  | .title => options.title
  | .axisTicks => options.axisTicks
  | .todayMarker => options.todayMarker
  | .dependencies => options.dependencies
  | .inputDateFormat => options.inputDateFormat
  | .outputDateFormat => options.outputDateFormat
  | .businessDays => options.businessDays

/-- The options with one more set, in place of an earlier value. -/
def set (options : Options) (key : OptionKey) (value : String) : Options :=
  match key with
  | .title => { options with title := some value }
  | .axisTicks => { options with axisTicks := some value }
  | .todayMarker => { options with todayMarker := some value }
  | .dependencies => { options with dependencies := some value }
  | .inputDateFormat => { options with inputDateFormat := some value }
  | .outputDateFormat => { options with outputDateFormat := some value }
  | .businessDays => { options with businessDays := some value }

/-- The keys of the options that are set. -/
def keys (options : Options) : List OptionKey :=
  OptionKey.all.filter fun key => (options.get key).isSome

/-- The option is set to the word `on`, in any case. -/
def isOn (options : Options) (key : OptionKey) : Bool :=
  match options.get key with
  | some value => alike value.toList "on".toList
  | none => false

/--
  The number of ticks asked for, if any.  The value is a natural below 2 ^ 64 in digits, possibly
  after a plus sign; any other value is the error.
-/
def requestedTicks (options : Options) : Except String (Option Nat) :=
  match options.axisTicks with
  | none => .ok none
  | some value =>
    match Digits.ofWord? (trim value.toList) with
    | some n => .ok (some n)
    | none => .error value

/-- Setting an option changes that option only. -/
theorem get_set (options : Options) (key other : OptionKey) (value : String) :
    (options.set key value).get other = if other = key then some value else options.get other := by
  cases key <;> cases other <;> rfl

/-- Two records with the same value for every key are the same. -/
theorem ext_get {a b : Options} (h : ∀ key, a.get key = b.get key) : a = b := by
  have h₁ := h .title
  have h₂ := h .axisTicks
  have h₃ := h .todayMarker
  have h₄ := h .dependencies
  have h₅ := h .inputDateFormat
  have h₆ := h .outputDateFormat
  have h₇ := h .businessDays
  cases a
  cases b
  simp only [get] at h₁ h₂ h₃ h₄ h₅ h₆ h₇
  simp [h₁, h₂, h₃, h₄, h₅, h₆, h₇]

end Options

end GanttChart
