import QOrder.PyDecimal

/-! Bills, and what is printed of them: the receipt of a thermal printer, and an HTML page
that is written as a PDF. -/

namespace QOrder

structure BillItem where
  name : String
  quantity : Int
  unitPrice : PyDecimal

/-- A `datetime`, with the offset of its zone in seconds. -/
structure DateTime where
  year : Nat
  month : Nat
  day : Nat
  hour : Nat
  minute : Nat
  second : Nat
  microsecond : Nat := 0
  utcoffset : Option Int := none
  year_range : 1 ≤ year ∧ year ≤ 9999 := by decide
  month_range : 1 ≤ month ∧ month ≤ 12 := by decide
  day_range : 1 ≤ day ∧ day ≤ 31 := by decide
  hour_range : hour < 24 := by decide
  minute_range : minute < 60 := by decide
  second_range : second < 60 := by decide

structure BillData where
  restaurantName : String
  tableLabel : String
  items : List BillItem
  totalAmount : PyDecimal
  currency : String
  closedAt : DateTime

inductive BillMethod
  | thermal | pdf | failed
  deriving DecidableEq, Repr

structure BillResult where
  method : BillMethod
  pdfPath : Option String := none
  error : Option String := none
  deriving DecidableEq, Repr

section Text

/-- `f"{n:,}"`, from the last digit to the first. -/
def thousands : List Char → List Char
  | a :: b :: c :: d :: text => a :: b :: c :: ',' :: thousands (d :: text)
  | text => text

/-- `f"{n:,}"` -/
def withThousands (n : Int) : List Char :=
  PyDecimal.minus (decide (n < 0)) ++ (thousands (PyDecimal.digits n.natAbs).reverse).reverse

/-- `str.replace` of one character by another. -/
def replaceChar (a b : Char) (text : List Char) : List Char := text.map fun c => if c = a then b else c

/-- `%d`, `%m`, `%H`, `%M` and `%S` -/
def twoDigits (n : Nat) : List Char := [Nat.digitChar (n / 10), Nat.digitChar (n % 10)]

namespace DateTime

variable (t : DateTime)

/-- `strftime("%d/%m/%Y %H:%M")`, with the year as glibc writes it. -/
def onBill : String := String.ofList (twoDigits t.day ++ '/' :: twoDigits t.month ++ '/' ::
  PyDecimal.digits t.year ++ ' ' :: twoDigits t.hour ++ ':' :: twoDigits t.minute)

/-- `strftime("%Y%m%d_%H%M%S")` -/
def inFilename : List Char := PyDecimal.digits t.year ++ twoDigits t.month ++ twoDigits t.day ++ '_' ::
  (twoDigits t.hour ++ twoDigits t.minute ++ twoDigits t.second)

end DateTime

end Text

def BillItem.lineTotal (item : BillItem) : PyDecimal := item.unitPrice.mul (PyDecimal.ofInt item.quantity)

namespace EscposPrinter

def formatPrice (amount : PyDecimal) (currency : String) : String :=
  if currency = "VND" then String.ofList (replaceChar ',' '.' (withThousands amount.toInt ++ ['đ']))
  else String.ofList amount.str ++ " " ++ currency

inductive PrinterCall
  | network (ip : String) (port : Int)
  | usb (vendor product : Nat)
  | set (align : String) (bold : Bool) (double : Option Bool)
  | text (txt : String)
  | cut
  deriving DecidableEq, Repr

/-- The price of a line on the receipt. -/
def linePrice (bill : BillData) (item : BillItem) : String := formatPrice item.lineTotal bill.currency

def total (bill : BillData) : String := formatPrice bill.totalAmount bill.currency

def separator : String := String.ofList (List.replicate 32 '-') ++ "\n"

def itemCalls (bill : BillData) (item : BillItem) : List PrinterCall :=
  [.text (item.name ++ "\n"),
    .text ("  " ++ toString item.quantity ++ " x " ++ formatPrice item.unitPrice bill.currency ++ " = " ++
      linePrice bill item ++ "\n")]

/-- The calls of the printer that put a bill on paper. -/
def receipt (bill : BillData) : List PrinterCall :=
  [.set "center" true (some true), .text (bill.restaurantName ++ "\n"),
    .set "center" false (some false), .text ("Ban: " ++ bill.tableLabel ++ "\n"),
    .text separator, .set "left" false none] ++
  bill.items.flatMap (itemCalls bill) ++
  [.text separator, .set "right" true none, .text ("TONG: " ++ total bill ++ "\n"),
    .set "center" false none, .text (bill.closedAt.onBill ++ "\n"), .text "\n", .cut]

end EscposPrinter

namespace PdfPrinter

def formatPrice (amount : PyDecimal) (currency : String) : String :=
  if currency = "VND" then String.ofList (replaceChar ',' '.' (withThousands amount.toInt ++ ['đ']))
  else String.ofList amount.str ++ " " ++ currency

def htmlHead : String :=
  "<!DOCTYPE html>\n" ++
  "<html lang=\"vi\">\n" ++
  "<head>\n" ++
  "<meta charset=\"utf-8\">\n" ++
  "<style>\n" ++
  "  body \x7b font-family: 'Arial', sans-serif; width: 72mm; margin: 0 auto; padding: 8px; font-size: 12px; \x7d\n" ++
  "  .center \x7b text-align: center; \x7d\n" ++
  "  .right \x7b text-align: right; \x7d\n" ++
  "  h1 \x7b font-size: 16px; margin: 4px 0; \x7d\n" ++
  "  .table-label \x7b font-size: 14px; margin-bottom: 8px; \x7d\n" ++
  "  hr \x7b border: none; border-top: 1px dashed #000; margin: 6px 0; \x7d\n" ++
  "  table \x7b width: 100%; border-collapse: collapse; \x7d\n" ++
  "  table td \x7b padding: 2px 0; vertical-align: top; \x7d\n" ++
  "  .item-name \x7b font-weight: bold; \x7d\n" ++
  "  .total \x7b font-size: 14px; font-weight: bold; \x7d\n" ++
  "  .timestamp \x7b margin-top: 8px; font-size: 11px; color: #555; \x7d\n" ++
  "</style>\n" ++
  "</head>\n" ++
  "<body>\n" ++
  "  <div class=\"center\">\n" ++
  "    <h1>"

/-- The price of a line on the page. -/
def linePrice (bill : BillData) (item : BillItem) : String := formatPrice item.lineTotal bill.currency

def total (bill : BillData) : String := formatPrice bill.totalAmount bill.currency

def itemRow (bill : BillData) (item : BillItem) : String :=
  "<tr><td class=\"item-name\">" ++ item.name ++ "</td>" ++
  "<td>" ++ toString item.quantity ++ " x " ++ formatPrice item.unitPrice bill.currency ++ "</td>" ++
  "<td class=\"right\">" ++ linePrice bill item ++ "</td></tr>\n"

def renderHtml (bill : BillData) : String :=
  htmlHead ++ bill.restaurantName ++
  "</h1>\n    <div class=\"table-label\">Bàn: " ++ bill.tableLabel ++
  "</div>\n  </div>\n  <hr>\n  <table>\n    " ++ String.join (bill.items.map (itemRow bill)) ++
  "\n  </table>\n  <hr>\n  <div class=\"right total\">TỔNG: " ++ total bill ++
  "</div>\n  <div class=\"center timestamp\">" ++ bill.closedAt.onBill ++ "</div>\n</body>\n</html>\n"

def safeTable (bill : BillData) : List Char := replaceChar ' ' '_' bill.tableLabel.toList

def filename (bill : BillData) : List Char :=
  "bill_".toList ++ safeTable bill ++ '_' :: bill.closedAt.inFilename ++ ".pdf".toList

/-- `os.path.join` of a directory and a relative name. -/
def joinPath (dir name : List Char) : List Char :=
  if dir = [] ∨ dir.getLast? = some '/' then dir ++ name else dir ++ '/' :: name

def pdfPath (outputDir : String) (bill : BillData) : String :=
  String.ofList (joinPath outputDir.toList (filename bill))

end PdfPrinter

/-- The bill that the tests of the printing service print. -/
def phoBill : BillData where
  restaurantName := "Quán Phở 24"
  tableLabel := "B3"
  items := [⟨"Phở bò tái", 2, PyDecimal.ofInt 55000⟩, ⟨"Gỏi cuốn", 1, PyDecimal.ofInt 35000⟩]
  totalAmount := PyDecimal.ofInt 145000
  currency := "VND"
  closedAt := { year := 2024, month := 6, day := 15, hour := 14, minute := 30, second := 0 }

/-- Two items at half a đồng, for one đồng in all. -/
def coinBill : BillData := { phoBill with
  items := [⟨"Kẹo bạc hà", 1, ⟨false, 50, -2⟩⟩, ⟨"Kẹo dừa", 1, ⟨false, 50, -2⟩⟩]
  totalAmount := ⟨false, 100, -2⟩ }

end QOrder
