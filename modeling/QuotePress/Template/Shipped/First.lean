/-! # The first shipped template

A header with the company, a table of the lines, the total, and two notes. -/
namespace QuotePress.ShippedTemplate

def firstLines : List String := [
  "<!DOCTYPE html>",
  "<html>",
  "<head>",
  "<meta charset=\"utf-8\">",
  "<title>Quote \x7b\x7bquoteNumber\x7d\x7d</title>",
  "<style>",
  "  body \x7b font-family: Arial, sans-serif; font-size: 12px; color: #222; \x7d",
  "  h1 \x7b font-size: 18px; margin: 0; \x7d",
  "  table \x7b width: 100%; border-collapse: collapse; margin-top: 16px; \x7d",
  "  th, td \x7b border-bottom: 1px solid #ccc; padding: 6px; text-align: left; \x7d",
  "  .total \x7b text-align: right; font-size: 14px; font-weight: bold; \x7d",
  "</style>",
  "</head>",
  "<body>",
  "<header>",
  "  <h1>\x7b\x7bcompanyName\x7d\x7d</h1>",
  "  <p>\x7b\x7bcompanyAddress\x7d\x7d \x7b\x7bcompanyCity\x7d\x7d \x7b\x7bcompanyState\x7d\x7d</p>",
  "  <p>\x7b\x7bcompanyPhone\x7d\x7d \x7b\x7bcompanyEmail\x7d\x7d</p>",
  "</header>",
  "<section>",
  "  <h2>Quote \x7b\x7bquoteNumber\x7d\x7d</h2>",
  "  <p>Date: \x7b\x7bquoteDate\x7d\x7d</p>",
  "  <p>Client: \x7b\x7bclientName\x7d\x7d</p>",
  "</section>",
  "<table>",
  "  <tr><th>#</th><th>Product</th><th>Specification</th><th>Subtotal</th></tr>",
  "\x7b\x7b#each items\x7d\x7d  <tr><td>\x7b\x7bindex\x7d\x7d</td><td>\x7b\x7bproductName\x7d\x7d</td><td>\x7b\x7bspecification\x7d\x7d</td><td>\x7b\x7bsubtotal\x7d\x7d</td></tr>",
  "\x7b\x7b/each\x7d\x7d</table>",
  "<p class=\"total\">Total: \x7b\x7btotal\x7d\x7d</p>",
  "\x7b\x7b#if paymentTerms\x7d\x7d<p>Payment terms: \x7b\x7bpaymentTerms\x7d\x7d</p>\x7b\x7b/if\x7d\x7d",
  "\x7b\x7b#if observations\x7d\x7d<p>\x7b\x7bobservations\x7d\x7d</p>\x7b\x7b/if\x7d\x7d",
  "</body>",
  "</html>",
  ""]

end QuotePress.ShippedTemplate
