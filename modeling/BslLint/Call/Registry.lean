import BslLint.Spelling

/-!
The built-in calls that the checks know: the modal dialogs with their asynchronous counterparts,
the evaluation of code, and the switch of the safe mode.
-/

namespace BslLint

/-- A registered call, whatever its spelling. -/
inductive CallId where
  | openValue
  | openFormModal
  | queryBox
  | messageBox
  | chooseFromList
  | inputString
  | inputNumber
  | inputDate
  | doModal
  | putFile
  | checkItems
  | chooseItem
  | installFileSystemExtension
  | installAddIn
  | eval
  | setSafeMode
deriving DecidableEq, Repr

namespace CallId

def all : List CallId :=
  [openValue, openFormModal, queryBox, messageBox, chooseFromList, inputString, inputNumber,
   inputDate, doModal, putFile, checkItems, chooseItem, installFileSystemExtension, installAddIn,
   eval, setSafeMode]

theorem mem_all (id : CallId) : id ∈ all := by cases id <;> decide

def code : CallId → String
  | openValue => "open-value"
  | openFormModal => "open-form-modal"
  | queryBox => "query-box"
  | messageBox => "message-box"
  | chooseFromList => "choose-from-list"
  | inputString => "input-string"
  | inputNumber => "input-number"
  | inputDate => "input-date"
  | doModal => "do-modal"
  | putFile => "put-file"
  | checkItems => "check-items"
  | chooseItem => "choose-item"
  | installFileSystemExtension => "install-filesystem-extension"
  | installAddIn => "install-addin"
  | eval => "eval"
  | setSafeMode => "set-safe-mode"

end CallId

/-- How the arguments follow the name of the replacement: as they are, after a leading empty
argument for the callback, or untouched behind the opening parenthesis and the empty argument. -/
inductive ArgumentStyle where
  | passthrough
  | commaFirst
  | selector
deriving DecidableEq, Repr

/-- How far an edit of a call reaches. -/
inductive EditReach where
  | throughCallEnd
  | throughOpenParen
deriving DecidableEq, Repr

/-- The asynchronous counterpart of a modal call. -/
structure Replacement where
  name : Spelling
  style : ArgumentStyle
deriving DecidableEq, Repr

namespace Replacement

/-- A selector leaves its arguments where they are; every other edit covers the whole call. -/
def reach (r : Replacement) : EditReach :=
  match r.style with
  | .selector => .throughOpenParen
  | .passthrough | .commaFirst => .throughCallEnd

end Replacement

namespace CallId

def spelling : CallId → Spelling
  | openValue => ⟨"ОткрытьЗначение", "OpenValue"⟩
  | openFormModal => ⟨"ОткрытьФормуМодально", "OpenFormModal"⟩
  | queryBox => ⟨"Вопрос", "DoQueryBox"⟩
  | messageBox => ⟨"Предупреждение", "DoMessageBox"⟩
  | chooseFromList => ⟨"ВыбратьИзСписка", "ChooseFromList"⟩
  | inputString => ⟨"ВвестиСтроку", "InputString"⟩
  | inputNumber => ⟨"ВвестиЧисло", "InputNumber"⟩
  | inputDate => ⟨"ВвестиДату", "InputDate"⟩
  | doModal => ⟨"ОткрытьМодально", "DoModal"⟩
  | putFile => ⟨"ПоместитьФайл", "PutFile"⟩
  | checkItems => ⟨"ОтметитьЭлементы", "CheckItems"⟩
  | chooseItem => ⟨"ВыбратьЭлемент", "ChooseItem"⟩
  | installFileSystemExtension =>
    ⟨"УстановитьРасширениеРаботыСФайлами", "InstallFileSystemExtension"⟩
  | installAddIn => ⟨"УстановитьВнешнююКомпоненту", "InstallAddIn"⟩
  | eval => ⟨"Вычислить", "Eval"⟩
  | setSafeMode => ⟨"УстановитьБезопасныйРежим", "SetSafeMode"⟩

def replacement? : CallId → Option Replacement
  | openValue => some ⟨⟨"ПоказатьЗначение", "ShowValue"⟩, .commaFirst⟩
  | openFormModal => some ⟨⟨"ОткрытьФорму", "OpenForm"⟩, .passthrough⟩
  | queryBox => some ⟨⟨"ПоказатьВопрос", "ShowQueryBox"⟩, .commaFirst⟩
  | messageBox => some ⟨⟨"ПоказатьПредупреждение", "ShowMessageBox"⟩, .commaFirst⟩
  | chooseFromList => some ⟨⟨"ПоказатьВыборИзСписка", "ShowChooseFromList"⟩, .selector⟩
  | inputString => some ⟨⟨"ПоказатьВводСтроки", "ShowInputString"⟩, .commaFirst⟩
  | inputNumber => some ⟨⟨"ПоказатьВводЧисла", "ShowInputNumber"⟩, .commaFirst⟩
  | inputDate => some ⟨⟨"ПоказатьВводДаты", "ShowInputDate"⟩, .commaFirst⟩
  | doModal => some ⟨⟨"Показать", "Show"⟩, .passthrough⟩
  | putFile => some ⟨⟨"НачатьПомещениеФайла", "BeginPutFile"⟩, .commaFirst⟩
  | checkItems => some ⟨⟨"ПоказатьОтметкуЭлементов", "ShowCheckItems"⟩, .selector⟩
  | chooseItem => some ⟨⟨"ПоказатьВыборЭлемента", "ShowChooseItem"⟩, .selector⟩
  | installFileSystemExtension =>
    some ⟨⟨"НачатьУстановкуРасширенияРаботыСФайлами", "BeginInstallFileSystemExtension"⟩,
      .passthrough⟩
  | installAddIn => some ⟨⟨"НачатьУстановкуВнешнейКомпоненты", "BeginInstallAddIn"⟩, .commaFirst⟩
  | eval => none
  | setSafeMode => none

def isModal (id : CallId) : Bool := id.replacement?.isSome

def lookup? (name : Text) : Option CallId := all.find? fun id => id.spelling.covers name

def lookupModal? (name : Text) : Option CallId := (lookup? name).filter isModal

end CallId

end BslLint
