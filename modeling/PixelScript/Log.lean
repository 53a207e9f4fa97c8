import PixelScript.Fallible
import PixelScript.Line

namespace PixelScript

/-- What a diagnostic log takes: a rejected line, or the error that kept a run from starting. -/
inductive Entry where
  | rejected (report : Report)
  | fatal (message : String)
  deriving DecidableEq

namespace Entry

def text : Entry → String
  | rejected report => report.text
  | fatal message => message

def json : Entry → String
  | rejected report => report.json
  | fatal message => "\x7b\"message\":" ++ Text.Quoted.encode message ++ "\x7d"

end Entry

/-- A log after an entry: what it printed on standard error, and why it lost the entry, if so. -/
structure Receipt (σ : Type) where
  log : σ
  echoed : List String
  refusal : Option IoError

/-- The states of a log. -/
class Log (σ : Type) where
  add : σ → Entry → Receipt σ

namespace Log

variable {σ : Type} [Log σ]

/-- The log after some entries, whether it took them or not. -/
def addAll (log : σ) (entries : List Entry) : σ :=
  entries.foldl (fun log e => (add log e).log) log

theorem addAll_append (log : σ) (es fs : List Entry) :
    addAll log (es ++ fs) = addAll (addAll log es) fs :=
  List.foldl_append

end Log

/-- A log that loses every entry as long as it has a refusal. -/
structure GuardedLog (σ : Type) where
  inner : σ
  refusal : Option IoError

instance {σ : Type} [Log σ] : Log (GuardedLog σ) where
  add l e :=
    match l.refusal with
    | some cause => ⟨l, [], some cause⟩
    | none =>
      let receipt := Log.add l.inner e
      ⟨{ l with inner := receipt.log }, receipt.echoed, receipt.refusal⟩

/-- A log under watch: what it was handed so far, each entry with the error that lost it, if any. -/
structure WatchedLog (σ : Type) where
  inner : σ
  seen : List (Entry × Option IoError)

instance {σ : Type} [Log σ] : Log (WatchedLog σ) where
  add l e :=
    let receipt := Log.add l.inner e
    ⟨⟨receipt.log, l.seen ++ [(e, receipt.refusal)]⟩, receipt.echoed, receipt.refusal⟩

/-- A log without a file. -/
structure Journal where
  reports : List Report
  fatals : List String

namespace Journal

def empty : Journal := ⟨[], []⟩

def isEmpty (l : Journal) : Bool := l.reports.isEmpty && l.fatals.isEmpty

/-- Fatal errors stand before the reports. -/
def lines (l : Journal) : List String := l.fatals ++ l.reports.map Report.text

def add (l : Journal) : Entry → Journal
  | .rejected report => { l with reports := l.reports ++ [report] }
  | .fatal message => { l with fatals := l.fatals ++ [message] }

instance : Log Journal where
  add l e := ⟨l.add e, [], none⟩

end Journal

end PixelScript
