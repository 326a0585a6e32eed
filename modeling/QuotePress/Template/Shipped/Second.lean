/-! # The second shipped template

A header with logo and contacts, a table of the lines, the total, and the terms. -/
namespace QuotePress.ShippedTemplate

def secondLines : List String := [
  "<!DOCTYPE html>",
  "<html>",
  "<head>",
  "<meta charset=\"utf-8\">",
  "<title>Quote \x7b\x7bquoteNumber\x7d\x7d</title>",
  "<style>",
  "  body \x7b font-family: Arial, sans-serif; font-size: 12px; color: #222; margin: 32px; \x7d",
  "  header \x7b display: flex; justify-content: space-between; align-items: center; border-bottom: 2px solid #333; padding-bottom: 12px; \x7d",
  "  header img \x7b max-height: 64px; \x7d",
  "  h1 \x7b font-size: 18px; margin: 0; \x7d",
  "  h2 \x7b font-size: 15px; margin: 20px 0 8px; \x7d",
  "  table \x7b width: 100%; border-collapse: collapse; \x7d",
  "  th, td \x7b border-bottom: 1px solid #ccc; padding: 6px; text-align: left; vertical-align: top; \x7d",
  "  .muted \x7b color: #666; font-size: 11px; \x7d",
  "  .total \x7b text-align: right; font-size: 15px; font-weight: bold; margin-top: 12px; \x7d",
  "  .terms dt \x7b font-weight: bold; margin-top: 6px; \x7d",
  "</style>",
  "</head>",
  "<body>",
  "<header>",
  "  <div>",
  "    <h1>\x7b\x7bcompanyName\x7d\x7d</h1>",
  "    \x7b\x7b#if companyTaxId\x7d\x7d<div class=\"muted\">CNPJ \x7b\x7bcompanyTaxId\x7d\x7d</div>\x7b\x7b/if\x7d\x7d",
  "    <div class=\"muted\">\x7b\x7bcompanyAddress\x7d\x7d - \x7b\x7bcompanyCity\x7d\x7d/\x7b\x7bcompanyState\x7d\x7d</div>",
  "    <div class=\"muted\">\x7b\x7bcompanyPhone\x7d\x7d \x7b\x7bcompanyEmail\x7d\x7d \x7b\x7bcompanyWebsite\x7d\x7d</div>",
  "  </div>",
  "  \x7b\x7b#if companyLogo\x7d\x7d<img src=\"\x7b\x7bcompanyLogo\x7d\x7d\" alt=\"\x7b\x7bcompanyName\x7d\x7d\">\x7b\x7b/if\x7d\x7d",
  "</header>",
  "",
  "<h2>Quote \x7b\x7bquoteNumber\x7d\x7d</h2>",
  "<p>Issued \x7b\x7bquoteDate\x7d\x7d\x7b\x7b#if validUntil\x7d\x7d, valid for \x7b\x7bvalidityDays\x7d\x7d days (until \x7b\x7bvalidUntil\x7d\x7d)\x7b\x7b/if\x7d\x7d</p>",
  "",
  "<h2>Client</h2>",
  "<p>",
  "  <strong>\x7b\x7bclientName\x7d\x7d</strong>\x7b\x7b#if clientCompany\x7d\x7d - \x7b\x7bclientCompany\x7d\x7d\x7b\x7b/if\x7d\x7d<br>",
  "  \x7b\x7b#if clientPhone\x7d\x7d\x7b\x7bclientPhone\x7d\x7d<br>\x7b\x7b/if\x7d\x7d",
  "  \x7b\x7b#if clientEmail\x7d\x7d\x7b\x7bclientEmail\x7d\x7d<br>\x7b\x7b/if\x7d\x7d",
  "  \x7b\x7bclientLocation\x7d\x7d",
  "</p>",
  "",
  "<table>",
  "  <tr><th>#</th><th>Product</th><th>Pricing</th><th>Specification</th><th>Subtotal</th></tr>",
  "\x7b\x7b#each items\x7d\x7d  <tr>",
  "    <td>\x7b\x7bindex\x7d\x7d</td>",
  "    <td>\x7b\x7bproductName\x7d\x7d</td>",
  "    <td>\x7b\x7bpricingTypeLabel\x7d\x7d</td>",
  "    <td>\x7b\x7bspecification\x7d\x7d\x7b\x7b#if unitPriceNote\x7d\x7d<div class=\"muted\">\x7b\x7bunitPriceNote\x7d\x7d</div>\x7b\x7b/if\x7d\x7d</td>",
  "    <td>\x7b\x7bsubtotal\x7d\x7d</td>",
  "  </tr>",
  "\x7b\x7b/each\x7d\x7d</table>",
  "<p class=\"total\">Total: \x7b\x7btotal\x7d\x7d</p>",
  "",
  "\x7b\x7b#if hasTechnicalSpecs\x7d\x7d<h2>Technical specifications</h2>",
  "<dl class=\"terms\">",
  "  \x7b\x7b#if material\x7d\x7d<dt>Material</dt><dd>\x7b\x7bmaterial\x7d\x7d</dd>\x7b\x7b/if\x7d\x7d",
  "  \x7b\x7b#if finishing\x7d\x7d<dt>Finishing</dt><dd>\x7b\x7bfinishing\x7d\x7d</dd>\x7b\x7b/if\x7d\x7d",
  "  \x7b\x7b#if technicalSpecs\x7d\x7d<dt>Details</dt><dd>\x7b\x7btechnicalSpecs\x7d\x7d</dd>\x7b\x7b/if\x7d\x7d",
  "</dl>\x7b\x7b/if\x7d\x7d",
  "",
  "<h2>Commercial terms</h2>",
  "<dl class=\"terms\">",
  "  \x7b\x7b#if paymentTerms\x7d\x7d<dt>Payment</dt><dd>\x7b\x7bpaymentTerms\x7d\x7d</dd>\x7b\x7b/if\x7d\x7d",
  "  \x7b\x7b#if warranty\x7d\x7d<dt>Warranty</dt><dd>\x7b\x7bwarranty\x7d\x7d</dd>\x7b\x7b/if\x7d\x7d",
  "  <dt>Installation</dt><dd>\x7b\x7binstallationStatus\x7d\x7d\x7b\x7b#if installationDeadline\x7d\x7d (\x7b\x7binstallationDeadline\x7d\x7d)\x7b\x7b/if\x7d\x7d</dd>",
  "  \x7b\x7b#if deliveryTime\x7d\x7d<dt>Delivery</dt><dd>\x7b\x7bdeliveryTime\x7d\x7d</dd>\x7b\x7b/if\x7d\x7d",
  "</dl>",
  "\x7b\x7b#if observations\x7d\x7d<h2>Observations</h2>",
  "<p>\x7b\x7bobservations\x7d\x7d</p>\x7b\x7b/if\x7d\x7d",
  "</body>",
  "</html>",
  ""]

end QuotePress.ShippedTemplate
